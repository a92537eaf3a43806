import Spdlogger.RideStateManager.Scans

namespace spdlogger.ride_state_manager

variable {Dispatcher Observer Tid : Type} [DecidableEq Dispatcher] [DecidableEq Observer]
  [Fintype Tid] [DecidableEq Tid]

/-- The entry that a step of `subscribe` appends to `observers_`. -/
def State.pushedBy (s : State Dispatcher Observer Tid) :
    Action Dispatcher Observer Tid → Option (ObserverData Dispatcher Observer)
  | .callerStep thread =>
    match s.callers thread with
    | .subscribing dispatcher observer index .lockingDispatcher =>
      if index < s.manager.observers.length then none else some ⟨dispatcher, observer⟩
    | _ => none
  | _ => none

/-- The entry that a step of `unsubscribe` erases because it has its observer. -/
def State.unsubscribedBy (s : State Dispatcher Observer Tid) :
    Action Dispatcher Observer Tid → Option (ObserverData Dispatcher Observer)
  | .callerStep thread =>
    match s.callers thread with
    | .unsubscribing observer index (.deciding _ (some currentObserver)) =>
      if currentObserver = observer then s.manager.observers[index]? else none
    | _ => none
  | _ => none

/-- Both objects of the entry are alive. -/
def State.alive (s : State Dispatcher Observer Tid) (entry : ObserverData Dispatcher Observer) :
    Bool :=
  s.dispatcherAlive entry.dispatcher && s.observerAlive entry.observer

omit [DecidableEq Tid] in
/-- An entry that is alive was alive before. -/
theorem State.Ages.alive {s next : State Dispatcher Observer Tid} (h : s.Ages next)
    {entry : ObserverData Dispatcher Observer} (halive : next.alive entry) : s.alive entry := by
  obtain ⟨hdispatcher, hobserver⟩ := (Bool.and_eq_true _ _).mp halive
  exact (Bool.and_eq_true _ _).mpr
    ⟨h.dispatcher _ hdispatcher, h.observer _ hobserver⟩

omit [DecidableEq Tid] in
/-- An entry of which one side could not be locked has expired. -/
theorem State.expired_of_lock {s : State Dispatcher Observer Tid} {index : Nat}
    (hlock : s.lockDispatcher index = none ∨ s.lockObserver index = none)
    {entry : ObserverData Dispatcher Observer} (hentry : s.manager.observers[index]? = some entry) :
    s.alive entry = false := by
  rw [State.alive, Bool.and_eq_false_iff]
  obtain hdispatcher | hobserver := hlock
  · rw [State.lockDispatcher, hentry, Option.bind_some, ite_eq_right_iff] at hdispatcher
    exact .inl (by simpa using hdispatcher)
  · rw [State.lockObserver, hentry, Option.bind_some, ite_eq_right_iff] at hobserver
    exact .inr (by simpa using hobserver)

/-- What a step does to `observers_`. -/
inductive State.Edit (s next : State Dispatcher Observer Tid)
    (action : Action Dispatcher Observer Tid) : Prop where
  | keep (hnext : next.manager.observers = s.manager.observers)
  | push (entry : ObserverData Dispatcher Observer) (hpushed : s.pushedBy action = some entry)
      (hnext : next.manager.observers = s.manager.observers ++ [entry])
  | erase (index : Nat) (hreason : ∀ entry, s.manager.observers[index]? = some entry →
        s.unsubscribedBy action = some entry ∨ s.alive entry = false)
      (hnext : next.manager.observers = s.manager.observers.eraseIdx index)

omit [DecidableEq Tid] in
/-- An entry of which a loop could not lock both sides has expired. -/
theorem State.Reads.expired {s : State Dispatcher Observer Tid} {index : Nat}
    {dispatcher : Option Dispatcher} {observer : Option Observer}
    (h : s.Reads index (.deciding dispatcher observer))
    (hnone : ∀ d o, dispatcher = some d → observer = some o → False)
    {entry : ObserverData Dispatcher Observer} (hentry : s.manager.observers[index]? = some entry) :
    s.alive entry = false := by
  obtain ⟨hdispatcher, hobserver⟩ := h
  cases dispatcher with
  | none => exact State.expired_of_lock (.inl hdispatcher) hentry
  | some d =>
    cases observer with
    | none => exact State.expired_of_lock (.inr hobserver) hentry
    | some o => exact (hnone d o rfl rfl).elim

omit [DecidableEq Tid] in
/-- A step of the observer thread's loop erases an expired entry at most. -/
theorem State.Scanned.edit_snapshotStep {s : State Dispatcher Observer Tid} (h : s.Scanned)
    {notification : NotificationData} {healthyObservers : List (Dispatcher × Observer)}
    {index : Nat} {scan : Scan Dispatcher Observer}
    (hphase : s.observerThread = .scanning notification healthyObservers index scan) :
    s.Edit (s.snapshotStep notification healthyObservers index scan) .observerStep := by
  have hreads := h.observerThread
  rw [hphase] at hreads
  obtain ⟨-, -, hreads⟩ := hreads
  have hmove := s.snapshotMove notification healthyObservers index scan
  generalize s.snapshotStep notification healthyObservers index scan = next at hmove
  cases hmove with
  | erase _ _ hnone =>
    exact .erase index (fun entry hentry => .inr (hreads.expired hnone hentry)) rfl
  | _ => exact .keep rfl

/-- A step of `subscribe` erases an expired entry or appends its own at most. -/
theorem State.Scanned.edit_subscribeStep {s : State Dispatcher Observer Tid} (h : s.Scanned)
    {thread : Tid} {dispatcher : Dispatcher} {observer : Observer} {index : Nat}
    {scan : Scan Dispatcher Observer}
    (hphase : s.callers thread = .subscribing dispatcher observer index scan) :
    s.Edit (s.subscribeStep thread dispatcher observer index scan) (.callerStep thread) := by
  have hreads := h.callers thread
  rw [hphase] at hreads
  obtain ⟨-, hreads⟩ := hreads
  have hmove := s.subscribeMove thread dispatcher observer index scan
  generalize s.subscribeStep thread dispatcher observer index scan = next at hmove
  cases hmove with
  | append hend =>
    refine .push ⟨dispatcher, observer⟩ ?_ rfl
    simp only [State.pushedBy, hphase, if_neg (Nat.not_lt_of_le hend)]
  | erase _ _ hnone =>
    exact .erase index (fun entry hentry => .inr (hreads.expired hnone hentry)) rfl
  | _ => exact .keep rfl

/-- A step of `unsubscribe` erases an expired entry or one of its observer at most. -/
theorem State.Scanned.edit_unsubscribeStep {s : State Dispatcher Observer Tid} (h : s.Scanned)
    {thread : Tid} {observer : Observer} {index : Nat} {scan : Scan Dispatcher Observer}
    (hphase : s.callers thread = .unsubscribing observer index scan) :
    s.Edit (s.unsubscribeStep thread observer index scan) (.callerStep thread) := by
  have hreads := h.callers thread
  rw [hphase] at hreads
  obtain ⟨-, hreads⟩ := hreads
  have hmove := s.unsubscribeMove thread observer index scan
  generalize s.unsubscribeStep thread observer index scan = next at hmove
  cases hmove with
  | erase =>
    refine .erase index (fun entry hentry => .inl ?_) rfl
    simp only [State.unsubscribedBy, hphase, hentry, if_true]
  | eraseExpired =>
    refine .erase index (fun entry hentry => .inr ?_) rfl
    exact State.expired_of_lock (.inr (hreads _ _ rfl)) hentry
  | _ => exact .keep rfl

/-- A step leaves `observers_` as it is, appends the entry of a `subscribe`, or erases an entry
that is being unsubscribed or has expired. -/
theorem State.Scanned.edit_of_step {s next : State Dispatcher Observer Tid} (h : s.Scanned)
    {action : Action Dispatcher Observer Tid} (hstep : s.step action = some next) :
    s.Edit next action := by
  cases State.turn_of_step hstep with
  | elsewhere hframe | owner hframe => exact .keep hframe.observers
  | call thread phase _ _ _ _ hnext => exact .keep (hnext ▸ rfl)
  | callerStep thread hcaller =>
    obtain ⟨_, _, _, hnext⟩ | hloop | hloop := State.callerStep_cases hcaller
    · obtain rfl | ⟨phase, rfl, _⟩ := hnext <;> exact .keep rfl
    · obtain ⟨dispatcher, observer, index, scan, hphase, rfl⟩ := hloop
      exact h.edit_subscribeStep hphase
    · obtain ⟨observer, index, scan, hphase, rfl⟩ := hloop
      exact h.edit_unsubscribeStep hphase
  | lock _ _ _ hnext => exact .keep (hnext ▸ rfl)
  | scan notification healthyObservers index scan hphase hnext =>
    subst hnext
    exact h.edit_snapshotStep hphase
  | dispatch _ _ _ _ _ _ hnext => exact .keep (hnext ▸ rfl)
  | resume _ _ _ _ hnext => exact .keep (hnext ▸ rfl)
  | finish _ _ _ _ _ hnext => exact .keep (hnext ▸ rfl)

/-- An entry other than the erased one stays. -/
theorem mem_eraseIdx_of_ne {α : Type} {l : List α} {index : Nat} {x : α} (hx : x ∈ l)
    (hne : l[index]? ≠ some x) : x ∈ l.eraseIdx index := by
  obtain ⟨position, hposition⟩ := List.mem_iff_getElem?.mp hx
  rw [List.mem_eraseIdx_iff_getElem?]
  refine ⟨position, ?_, hposition⟩
  rintro rfl
  exact hne hposition

omit [DecidableEq Tid] in
/-- An entry stays as long as it is not unsubscribed and both of its objects live. -/
theorem State.Edit.mem {s next : State Dispatcher Observer Tid}
    {action : Action Dispatcher Observer Tid} (h : s.Edit next action)
    {entry : ObserverData Dispatcher Observer} (hentry : entry ∈ s.manager.observers)
    (hsubscribed : s.unsubscribedBy action ≠ some entry) (halive : s.alive entry) :
    entry ∈ next.manager.observers := by
  cases h with
  | keep hnext => exact hnext ▸ hentry
  | push _ _ hnext => exact hnext ▸ List.mem_append_left _ hentry
  | erase index hreason hnext =>
    rw [hnext]
    refine mem_eraseIdx_of_ne hentry fun hposition => ?_
    obtain hremoved | hexpired := hreason entry hposition
    · exact hsubscribed hremoved
    · rw [halive] at hexpired
      cases hexpired

end spdlogger.ride_state_manager
