import Spdlogger.RideStateManager.Scans

namespace spdlogger.ride_state_manager

/-- What a shared pointer of the manager refers to. -/
inductive Object (Dispatcher Observer : Type) where
  | dispatcher (dispatcher : Dispatcher)
  | observer (observer : Observer)
  deriving DecidableEq

instance {Dispatcher Observer : Type} [Fintype Dispatcher] [Fintype Observer]
    (P : Object Dispatcher Observer → Prop) [DecidablePred P] : Decidable (∀ object, P object) :=
  decidable_of_iff ((∀ d, P (.dispatcher d)) ∧ ∀ o, P (.observer o))
    ⟨fun h object => match object with
      | .dispatcher d => h.1 d
      | .observer o => h.2 o, fun h => ⟨fun d => h (.dispatcher d), fun o => h (.observer o)⟩⟩

section Phases

variable {Dispatcher Observer : Type} [DecidableEq Dispatcher] [DecidableEq Observer]

/-- The locals of one iteration of a loop refer to an object. -/
def Scan.refers (object : Object Dispatcher Observer) (scan : Scan Dispatcher Observer) : Bool :=
  match object with
  | .dispatcher dispatcher => scan.dispatcher = some dispatcher
  | .observer observer => scan.observer = some observer

theorem Scan.refers_lockingDispatcher (object : Object Dispatcher Observer) :
    Scan.lockingDispatcher.refers object = false := by
  cases object <;> rfl

/-- The loop of the observer thread holds a reference to the object. -/
def ObserverPhase.refers (object : Object Dispatcher Observer) :
    ObserverPhase Dispatcher Observer → Bool
  | .scanning _ _ _ scan => scan.refers object
  | _ => false

/-- The loop of the call holds a reference to the object. -/
def CallerPhase.refers (object : Object Dispatcher Observer) :
    CallerPhase Dispatcher Observer → Bool
  | .subscribing _ _ _ scan | .unsubscribing _ _ scan => scan.refers object
  | _ => false

/-- `healthyObservers` has a copy of a reference to an object. -/
def ObserverPhase.copies (object : Object Dispatcher Observer)
    (phase : ObserverPhase Dispatcher Observer) : Bool :=
  match object with
  | .dispatcher dispatcher => dispatcher ∈ phase.copied.map Prod.fst
  | .observer observer => observer ∈ phase.copied.map Prod.snd

/-- An object is an argument of the call a thread is in. -/
def CallerPhase.argues (object : Object Dispatcher Observer)
    (phase : CallerPhase Dispatcher Observer) : Bool :=
  match object, phase with
  | .dispatcher dispatcher, .acquiringSubscribe argument _
  | .dispatcher dispatcher, .subscribing argument _ _ _ => argument = dispatcher
  | .observer observer, .acquiringSubscribe _ argument
  | .observer observer, .subscribing _ argument _ _
  | .observer observer, .acquiringUnsubscribe argument
  | .observer observer, .unsubscribing argument _ _ => argument = observer
  | _, _ => false

omit [DecidableEq Dispatcher] [DecidableEq Observer] in
/-- A resting thread has no copies. -/
theorem ObserverPhase.copied_of_resting {phase : ObserverPhase Dispatcher Observer}
    (hresting : phase.resting) : phase.copied = [] := by
  cases phase with
  | scanning | dispatching | inDispatch => cases hresting
  | _ => rfl

/-- More copies refer to more objects. -/
theorem ObserverPhase.copies_mono {phase later : ObserverPhase Dispatcher Observer}
    (hcopied : ∀ pair ∈ phase.copied, pair ∈ later.copied) {object : Object Dispatcher Observer}
    (hcopies : phase.copies object) : later.copies object := by
  cases object with
  | dispatcher d =>
    simp only [ObserverPhase.copies, decide_eq_true_eq, List.mem_map] at hcopies ⊢
    obtain ⟨pair, hpair, hd⟩ := hcopies
    exact ⟨pair, hcopied pair hpair, hd⟩
  | observer o =>
    simp only [ObserverPhase.copies, decide_eq_true_eq, List.mem_map] at hcopies ⊢
    obtain ⟨pair, hpair, ho⟩ := hcopies
    exact ⟨pair, hcopied pair hpair, ho⟩

end Phases

variable {Dispatcher Observer Tid : Type} [DecidableEq Dispatcher] [DecidableEq Observer]
  [Fintype Tid] [DecidableEq Tid]

/-- Somebody has a reference to the object. -/
def State.lives (s : State Dispatcher Observer Tid) : Object Dispatcher Observer → Bool
  | .dispatcher dispatcher => s.dispatcherAlive dispatcher
  | .observer observer => s.observerAlive observer

/-- Somebody outside the manager has a reference to the object. -/
def State.owned (s : State Dispatcher Observer Tid) : Object Dispatcher Observer → Bool
  | .dispatcher dispatcher => s.dispatcherOwned dispatcher
  | .observer observer => s.observerOwned observer

/-- An object has a reference that is not among the locals of a loop. -/
def State.pinned (s : State Dispatcher Observer Tid) (object : Object Dispatcher Observer) : Bool :=
  s.owned object || s.observerThread.copies object ||
    decide (∃ thread, (s.callers thread).argues object)

/-- The observer thread copies what it has locked in this iteration. -/
def State.willCopy (s : State Dispatcher Observer Tid) (index : Nat) :
    Scan Dispatcher Observer → Bool
  | .lockingObserver (some _) => (s.lockObserver index).isSome
  | .deciding (some _) (some _) => true
  | _ => false

/-- A loop refers to an object and drops the reference, without a copy of it, by
the end of its iteration. -/
def State.drops (s : State Dispatcher Observer Tid) (object : Object Dispatcher Observer) : Bool :=
  (match s.observerThread with
    | .scanning _ _ index scan => scan.refers object && !s.willCopy index scan
    | _ => false) ||
    decide (∃ thread, (s.callers thread).refers object)

theorem CallerPhase.holdsDispatcher_eq (phase : CallerPhase Dispatcher Observer)
    (dispatcher : Dispatcher) : phase.holdsDispatcher dispatcher =
      (phase.argues (.dispatcher dispatcher) || phase.refers (.dispatcher dispatcher)) := by
  cases phase <;> simp [CallerPhase.holdsDispatcher, CallerPhase.argues, CallerPhase.refers,
    Scan.refers]

theorem CallerPhase.holdsObserver_eq (phase : CallerPhase Dispatcher Observer)
    (observer : Observer) : phase.holdsObserver observer =
      (phase.argues (.observer observer) || phase.refers (.observer observer)) := by
  cases phase <;> simp [CallerPhase.holdsObserver, CallerPhase.argues, CallerPhase.refers,
    Scan.refers]

theorem ObserverPhase.holdsDispatcher_eq (phase : ObserverPhase Dispatcher Observer)
    (dispatcher : Dispatcher) : phase.holdsDispatcher dispatcher =
      (phase.copies (.dispatcher dispatcher) || phase.refers (.dispatcher dispatcher)) := by
  cases phase with
  | scanning => rfl
  | dispatching | inDispatch => exact (Bool.or_false _).symm
  | _ => simp [ObserverPhase.holdsDispatcher, ObserverPhase.copies, ObserverPhase.refers,
      ObserverPhase.copied]

theorem ObserverPhase.holdsObserver_eq (phase : ObserverPhase Dispatcher Observer)
    (observer : Observer) : phase.holdsObserver observer =
      (phase.copies (.observer observer) || phase.refers (.observer observer)) := by
  cases phase with
  | scanning => rfl
  | dispatching | inDispatch => exact (Bool.or_false _).symm
  | _ => simp [ObserverPhase.holdsObserver, ObserverPhase.copies, ObserverPhase.refers,
      ObserverPhase.copied]

omit [DecidableEq Tid] in
/-- What pins an object is an owner, a copy or an argument. -/
theorem State.pinned_iff {s : State Dispatcher Observer Tid}
    {object : Object Dispatcher Observer} : s.pinned object = true ↔ s.owned object = true ∨
      s.observerThread.copies object = true ∨
      ∃ thread, (s.callers thread).argues object = true := by
  simp [State.pinned, or_assoc]

omit [DecidableEq Tid] in
/-- An object lives through the references that pin it and through those of the loops. -/
theorem State.lives_iff {s : State Dispatcher Observer Tid}
    {object : Object Dispatcher Observer} : s.lives object = true ↔ s.pinned object = true ∨
      s.observerThread.refers object = true ∨
      ∃ thread, (s.callers thread).refers object = true := by
  rw [State.pinned_iff]
  cases object with
  | dispatcher d =>
    rw [State.lives, State.dispatcherAlive_iff]
    simp only [ObserverPhase.holdsDispatcher_eq, CallerPhase.holdsDispatcher_eq, Bool.or_eq_true,
      exists_or, State.owned]
    tauto
  | observer o =>
    rw [State.lives, State.observerAlive_iff]
    simp only [ObserverPhase.holdsObserver_eq, CallerPhase.holdsObserver_eq, Bool.or_eq_true,
      exists_or, State.owned]
    tauto

end spdlogger.ride_state_manager
