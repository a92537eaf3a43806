import Spdlogger.RideStateManager.References

namespace spdlogger.ride_state_manager

variable {Dispatcher Observer Tid : Type} [DecidableEq Dispatcher] [DecidableEq Observer]
  [Fintype Tid] [DecidableEq Tid]

/-- Every reference that a loop drops under its lock has another one beside it. -/
def State.Backed (s : State Dispatcher Observer Tid) : Prop :=
  ∀ object, s.drops object → s.pinned object

instance [Fintype Dispatcher] [Fintype Observer] (s : State Dispatcher Observer Tid) :
    Decidable s.Backed :=
  inferInstanceAs (Decidable (∀ object, s.drops object = true → s.pinned object = true))

/-- The steps that give up references outside the locks: those of the owners,
and the end of the dispatch loop with `healthyObservers`. -/
def State.letsGo (s : State Dispatcher Observer Tid) : Action Dispatcher Observer Tid → Bool
  | .releaseDispatcher _ | .releaseObserver _ => true
  | .observerStep =>
    match s.observerThread with
    | .dispatching _ healthyObservers index => healthyObservers[index]?.isNone
    | _ => false
  | _ => false

/-- The pins of an object survive a step. -/
structure State.Grows (s next : State Dispatcher Observer Tid) : Prop where
  owned : ∀ object, s.owned object → next.owned object
  copies : ∀ object, s.observerThread.copies object → next.observerThread.copies object
  argues : ∀ object thread, (s.callers thread).argues object → (next.callers thread).argues object

omit [DecidableEq Tid] in
/-- A pinned object stays pinned. -/
theorem State.Grows.pinned {s next : State Dispatcher Observer Tid} (h : s.Grows next)
    {object : Object Dispatcher Observer} (hpinned : s.pinned object) : next.pinned object := by
  obtain howned | hcopied | ⟨thread, hargued⟩ := State.pinned_iff.mp hpinned
  · exact State.pinned_iff.mpr (.inl (h.owned object howned))
  · exact State.pinned_iff.mpr (.inr (.inl (h.copies object hcopied)))
  · exact State.pinned_iff.mpr (.inr (.inr ⟨thread, h.argues object thread hargued⟩))

omit [DecidableEq Dispatcher] [DecidableEq Observer] [Fintype Tid] [DecidableEq Tid] in
theorem State.SameOwners.symm {s next : State Dispatcher Observer Tid} (h : s.SameOwners next) :
    next.SameOwners s := ⟨h.dispatchers.symm, h.observers.symm⟩

omit [DecidableEq Dispatcher] [DecidableEq Observer] [Fintype Tid] [DecidableEq Tid] in
theorem State.SameOwners.owned {s next : State Dispatcher Observer Tid} (h : s.SameOwners next) :
    next.owned = s.owned := by
  funext object
  cases object with
  | dispatcher d => exact congrFun h.dispatchers d
  | observer o => exact congrFun h.observers o

omit [Fintype Tid] [DecidableEq Tid] in
/-- Copies are only made, and the calls keep their arguments. -/
theorem State.Grows.of_sameOwners {s next : State Dispatcher Observer Tid}
    (howners : s.SameOwners next)
    (hcopied : ∀ pair ∈ s.observerThread.copied, pair ∈ next.observerThread.copied)
    (hargues : ∀ object thread, (s.callers thread).argues object →
      (next.callers thread).argues object) : s.Grows next where
  owned object howned := by
    rw [howners.owned]
    exact howned
  copies _ hcopies := ObserverPhase.copies_mono hcopied hcopies
  argues := hargues

/-- A loop that stands at no entry refers to nothing. -/
theorem CallerPhase.refers_of_not_scans {phase : CallerPhase Dispatcher Observer}
    (hphase : phase.scans = false) (object : Object Dispatcher Observer) :
    phase.refers object = false := by
  cases phase with
  | subscribing | unsubscribing => cases hphase
  | _ => rfl

/-- Outside its loop the observer thread refers to nothing in it. -/
theorem ObserverPhase.refers_of_not_scans {phase : ObserverPhase Dispatcher Observer}
    (hphase : phase.scans = false) (object : Object Dispatcher Observer) :
    phase.refers object = false := by
  cases phase with
  | scanning => cases hphase
  | _ => rfl

omit [DecidableEq Tid] in
/-- A reference is dropped by the observer thread, which does not copy it, or by the loop of a
call. -/
theorem State.drops_iff {s : State Dispatcher Observer Tid}
    {object : Object Dispatcher Observer} : s.drops object = true ↔
      (∃ notification healthyObservers index scan,
        s.observerThread = .scanning notification healthyObservers index scan ∧
        scan.refers object = true ∧ s.willCopy index scan = false) ∨
      ∃ thread, (s.callers thread).refers object = true := by
  unfold State.drops
  rw [Bool.or_eq_true, decide_eq_true_eq]
  refine or_congr_left ?_
  cases hphase : s.observerThread with
  | scanning notification healthyObservers index scan => simp
  | _ => simp

omit [DecidableEq Tid] in
/-- A step of the observer thread's loop, by what the iteration refers to. -/
theorem State.backed_of_scan {s next : State Dispatcher Observer Tid}
    (hcallers : ∀ thread object, (next.callers thread).refers object = false)
    (hsame : next.callers = s.callers) (hgrows : s.Grows next)
    (hdrops : ∀ notification copied later after,
      next.observerThread = .scanning notification copied later after →
      ∀ object, after.refers object → next.willCopy later after = false → next.pinned object)
    (hrefers : ∀ object, s.observerThread.refers object → next.lives object) :
    next.Backed ∧ ∀ object, s.lives object → next.lives object := by
  constructor
  · intro object hdropped
    obtain ⟨notification, copied, later, after, hphase, href, hkept⟩ | ⟨thread, href⟩ :=
      State.drops_iff.mp hdropped
    · exact hdrops notification copied later after hphase object href hkept
    · rw [hcallers thread object] at href
      cases href
  · intro object hlives
    obtain hpinned | href | ⟨thread, href⟩ := State.lives_iff.mp hlives
    · exact State.lives_iff.mpr (.inl (hgrows.pinned hpinned))
    · exact hrefers object href
    · rw [← hsame, hcallers thread object] at href
      cases href

section Scanning

variable {s : State Dispatcher Observer Tid} {notification : NotificationData}
  {healthyObservers : List (Dispatcher × Observer)} {index : Nat} {scan : Scan Dispatcher Observer}

omit [Fintype Tid] [DecidableEq Tid] in
/-- While the observer thread is in its loop, no call is in one. -/
theorem State.Locked.callers_refer_to_nothing (hlocked : s.Locked)
    (hphase : s.observerThread = .scanning notification healthyObservers index scan)
    (thread : Tid) (object : Object Dispatcher Observer) :
    (s.callers thread).refers object = false := by
  have hscans : s.observerThread.scans = true := by
    rw [hphase]
    rfl
  exact CallerPhase.refers_of_not_scans (hlocked.callers_outside hscans) object

omit [DecidableEq Tid] in
/-- What the iteration is about to drop has another reference. -/
theorem State.Backed.pinned_of_dropped (h : s.Backed)
    (hphase : s.observerThread = .scanning notification healthyObservers index scan)
    {object : Object Dispatcher Observer} (href : scan.refers object)
    (hkept : s.willCopy index scan = false) : s.pinned object :=
  h object (State.drops_iff.mpr (.inl ⟨_, _, _, _, hphase, href, hkept⟩))

omit [DecidableEq Tid] in
/-- An object that is alive has another reference, unless the iteration has one. -/
theorem State.Locked.pinned_of_lives (hlocked : s.Locked)
    (hphase : s.observerThread = .scanning notification healthyObservers index scan)
    {object : Object Dispatcher Observer} (hlives : s.lives object)
    (href : scan.refers object = false) : s.pinned object := by
  obtain hpinned | hrefers | ⟨thread, hrefers⟩ := State.lives_iff.mp hlives
  · exact hpinned
  · rw [hphase, ObserverPhase.refers, href] at hrefers
    cases hrefers
  · rw [hlocked.callers_refer_to_nothing hphase] at hrefers
    cases hrefers

omit [Fintype Tid] [DecidableEq Tid] in
/-- A step of the observer thread's loop unpins nothing. -/
theorem State.Grows.of_scan {next : State Dispatcher Observer Tid}
    (hphase : s.observerThread = .scanning notification healthyObservers index scan)
    (howners : s.SameOwners next) (hcallers : next.callers = s.callers)
    (hcopied : ∀ pair ∈ healthyObservers, pair ∈ next.observerThread.copied) : s.Grows next := by
  refine .of_sameOwners howners ?_ fun object thread hargues => ?_
  · rw [hphase]
    exact hcopied
  · rw [hcallers]
    exact hargues

omit [DecidableEq Tid] in
/-- A step that stays in the loop: what it will drop and what it no longer refers
to is pinned, or was copied. -/
theorem State.Locked.backed_of_scanning (hlocked : s.Locked)
    (hphase : s.observerThread = .scanning notification healthyObservers index scan)
    {next : State Dispatcher Observer Tid} {copied : List (Dispatcher × Observer)}
    {later : Nat} {after : Scan Dispatcher Observer}
    (hnext : next.observerThread = .scanning notification copied later after)
    (howners : s.SameOwners next) (hcallers : next.callers = s.callers)
    (hcopied : ∀ pair ∈ healthyObservers, pair ∈ copied)
    (hdrops : ∀ object, after.refers object → next.willCopy later after = false →
      s.pinned object ∨ next.observerThread.copies object)
    (hrefers : ∀ object, scan.refers object → after.refers object ∨ s.pinned object) :
    next.Backed ∧ ∀ object, s.lives object → next.lives object := by
  have hgrows : s.Grows next := .of_scan hphase howners hcallers (by rw [hnext]; exact hcopied)
  have hout := hlocked.callers_refer_to_nothing hphase
  refine State.backed_of_scan (by rw [hcallers]; exact hout) hcallers hgrows ?_ ?_
  · intro _ _ _ _ hscanning object href hkept
    rw [hnext] at hscanning
    cases hscanning
    obtain hpinned | hcopies := hdrops object href hkept
    · exact hgrows.pinned hpinned
    · exact State.pinned_iff.mpr (.inr (.inl hcopies))
  · intro object href
    rw [hphase] at href
    obtain hstill | hpinned := hrefers object href
    · exact State.lives_iff.mpr (.inr (.inl (by rw [hnext]; exact hstill)))
    · exact State.lives_iff.mpr (.inl (hgrows.pinned hpinned))

omit [DecidableEq Tid] in
/-- The loop of the observer thread. -/
theorem State.Backed.snapshotStep (h : s.Backed) (hlocked : s.Locked)
    (hphase : s.observerThread = .scanning notification healthyObservers index scan) :
    let next := s.snapshotStep notification healthyObservers index scan
    next.Backed ∧ ∀ object, s.lives object → next.lives object := by
  have hsame (pair : Dispatcher × Observer) (hpair : pair ∈ healthyObservers) :
      pair ∈ healthyObservers := hpair
  have hmove := s.snapshotMove notification healthyObservers index scan
  generalize s.snapshotStep notification healthyObservers index scan = next at hmove ⊢
  cases hmove with
  | lockDispatcher =>
    refine hlocked.backed_of_scanning hphase rfl ⟨rfl, rfl⟩ rfl hsame ?_ ?_
    · intro object href _
      cases object with
      | dispatcher d =>
        have halive := (State.lockDispatcher_eq_some (of_decide_eq_true href)).2
        exact .inl (hlocked.pinned_of_lives hphase halive rfl)
      | observer o => simp [Scan.refers, Scan.observer] at href
    · intro object href
      rw [Scan.refers_lockingDispatcher] at href
      cases href
  | leave =>
    refine State.backed_of_scan (hlocked.callers_refer_to_nothing hphase) rfl
      (.of_scan hphase ⟨rfl, rfl⟩ rfl hsame) ?_ ?_
    · intro _ _ _ _ hscanning
      cases hscanning
    · intro object href
      rw [hphase, ObserverPhase.refers, Scan.refers_lockingDispatcher] at href
      cases href
  | lockObserver currentDispatcher =>
    refine hlocked.backed_of_scanning hphase rfl ⟨rfl, rfl⟩ rfl hsame ?_ ?_
    · intro object href hkept
      cases object with
      | dispatcher d =>
        refine .inl (h.pinned_of_dropped hphase href ?_)
        obtain rfl : currentDispatcher = some d := of_decide_eq_true href
        cases hlock : s.lockObserver index with
        | none => simp [State.willCopy, hlock]
        | some o => simp [State.willCopy, hlock] at hkept
      | observer o =>
        have halive := (State.lockObserver_eq_some (of_decide_eq_true href)).2
        exact .inl (hlocked.pinned_of_lives hphase halive rfl)
    · intro object href
      cases object with
      | dispatcher d => exact .inl href
      | observer o => simp [Scan.refers, Scan.observer] at href
  | copy d o =>
    refine hlocked.backed_of_scanning hphase rfl ⟨rfl, rfl⟩ rfl
      (fun _ hpair => List.mem_append_left _ hpair) ?_ ?_
    · intro object href _
      cases object with
      | dispatcher d' =>
        obtain rfl : d = d' := Option.some.inj (of_decide_eq_true href)
        exact .inr (by simp [ObserverPhase.copies, ObserverPhase.copied])
      | observer o' =>
        obtain rfl : o = o' := Option.some.inj (of_decide_eq_true href)
        exact .inr (by simp [ObserverPhase.copies, ObserverPhase.copied])
    · exact fun object href => .inl href
  | erase currentDispatcher currentObserver hnone =>
    refine hlocked.backed_of_scanning hphase rfl ⟨rfl, rfl⟩ rfl hsame ?_ ?_
    · intro object href _
      refine .inl (h.pinned_of_dropped hphase href ?_)
      cases currentDispatcher with
      | none => rfl
      | some d =>
        cases currentObserver with
        | none => rfl
        | some o => exact (hnone d o rfl rfl).elim
    · exact fun object href => .inl href
  | releaseObserver =>
    refine hlocked.backed_of_scanning hphase rfl ⟨rfl, rfl⟩ rfl hsame ?_ ?_
    · intro object href _
      cases object with
      | dispatcher d => exact .inl (h.pinned_of_dropped hphase href rfl)
      | observer o => simp [Scan.refers, Scan.observer] at href
    · exact fun object href => .inr (h.pinned_of_dropped hphase href rfl)
  | next =>
    refine hlocked.backed_of_scanning hphase rfl ⟨rfl, rfl⟩ rfl hsame ?_ ?_
    · intro object href _
      rw [Scan.refers_lockingDispatcher] at href
      cases href
    · exact fun object href => .inr (h.pinned_of_dropped hphase href rfl)

end Scanning

omit [Fintype Tid] [DecidableEq Tid] in
/-- While a call is in its loop, no other call is in one. -/
theorem State.Locked.others_refer_to_nothing {s : State Dispatcher Observer Tid}
    (hlocked : s.Locked) {thread : Tid} (hinside : (s.callers thread).scans) (other : Tid)
    (object : Object Dispatcher Observer) (hother : other ≠ thread) :
    (s.callers other).refers object = false :=
  CallerPhase.refers_of_not_scans (hlocked.others_outside hinside hother) object

/-- An object is released by a call that returns with it as its argument. -/
def State.ReturnedWith (s next : State Dispatcher Observer Tid) (thread : Tid)
    (object : Object Dispatcher Observer) : Prop :=
  (s.callers thread).argues object ∧ ∃ result, next.callers thread = .returned result

omit [DecidableEq Tid] in
/-- While a call is inside, its loop is the only one, and so every object that
lives is pinned. -/
theorem State.Backed.pinned_of_lives {s : State Dispatcher Observer Tid} (h : s.Backed)
    (hscans : s.observerThread.scans = false) {object : Object Dispatcher Observer}
    (hlives : s.lives object) : s.pinned object := by
  obtain hpinned | href | hcaller := State.lives_iff.mp hlives
  · exact hpinned
  · rw [ObserverPhase.refers_of_not_scans hscans] at href
    cases href
  · exact h object (State.drops_iff.mpr (.inr hcaller))

/-- Inside a call, only its own loop refers to anything. -/
theorem State.backed_of_call {s next : State Dispatcher Observer Tid}
    (hscans : s.observerThread.scans = false) {thread : Tid}
    (hothers : ∀ other object, other ≠ thread → (s.callers other).refers object = false)
    (hthread : next.observerThread = s.observerThread) {phase : CallerPhase Dispatcher Observer}
    (hcallers : next.callers = Function.update s.callers thread phase)
    (hrefers : ∀ object, phase.refers object → next.pinned object) : next.Backed := by
  intro object hdropped
  obtain ⟨_, _, _, _, hphase, _⟩ | ⟨other, href⟩ := State.drops_iff.mp hdropped
  · rw [hthread] at hphase
    rw [hphase] at hscans
    cases hscans
  · by_cases hother : other = thread
    · rw [hother, hcallers, Function.update_self] at href
      exact hrefers object href
    · rw [hcallers, Function.update_of_ne hother, hothers other object hother] at href
      cases href

/-- A call that keeps its arguments keeps its references backed. -/
theorem State.Backed.stays {s next : State Dispatcher Observer Tid} (h : s.Backed)
    (hscans : s.observerThread.scans = false) {thread : Tid}
    (hothers : ∀ other object, other ≠ thread → (s.callers other).refers object = false)
    (howners : s.SameOwners next) (hthread : next.observerThread = s.observerThread)
    {phase : CallerPhase Dispatcher Observer}
    (hcallers : next.callers = Function.update s.callers thread phase)
    (hargues : ∀ object, (s.callers thread).argues object → phase.argues object)
    (hrefers : ∀ object, phase.refers object → s.lives object) :
    next.Backed ∧ ∀ object, s.lives object →
      next.lives object ∨ s.ReturnedWith next thread object := by
  have hgrows : s.Grows next := by
    refine .of_sameOwners howners (by rw [hthread]; exact fun _ hpair => hpair) ?_
    intro object other hargued
    by_cases hother : other = thread
    · rw [hother, hcallers, Function.update_self]
      exact hargues object (hother ▸ hargued)
    · rw [hcallers, Function.update_of_ne hother]
      exact hargued
  have hpinned (object : Object Dispatcher Observer) (hlives : s.lives object) :
      next.pinned object := hgrows.pinned (h.pinned_of_lives hscans hlives)
  refine ⟨State.backed_of_call hscans hothers hthread hcallers ?_, fun object hlives => ?_⟩
  · exact fun object href => hpinned object (hrefers object href)
  · exact .inl (State.lives_iff.mpr (.inl (hpinned object hlives)))

/-- A call that returns leaves the other references backed. -/
theorem State.Backed.returns {s next : State Dispatcher Observer Tid} (h : s.Backed)
    (hscans : s.observerThread.scans = false) {thread : Tid}
    (hothers : ∀ other object, other ≠ thread → (s.callers other).refers object = false)
    (howners : s.SameOwners next) (hthread : next.observerThread = s.observerThread) {result : Bool}
    (hcallers : next.callers = Function.update s.callers thread (.returned result)) :
    next.Backed ∧ ∀ object, s.lives object →
      next.lives object ∨ s.ReturnedWith next thread object := by
  refine ⟨State.backed_of_call hscans hothers hthread hcallers nofun, fun object hlives => ?_⟩
  have hkept (hpinned : next.pinned object) : next.lives object :=
    State.lives_iff.mpr (.inl hpinned)
  obtain howned | hcopied | ⟨other, hargued⟩ :=
    State.pinned_iff.mp (h.pinned_of_lives hscans hlives)
  · exact .inl (hkept (State.pinned_iff.mpr (.inl (by rw [howners.owned]; exact howned))))
  · exact .inl (hkept (State.pinned_iff.mpr (.inr (.inl (by rw [hthread]; exact hcopied)))))
  · by_cases hother : other = thread
    · subst hother
      exact .inr ⟨hargued, result, by rw [hcallers, Function.update_self]⟩
    · refine .inl (hkept (State.pinned_iff.mpr (.inr (.inr ⟨other, ?_⟩))))
      rw [hcallers, Function.update_of_ne hother]
      exact hargued

omit [DecidableEq Tid] in
/-- What a call refers to lives. -/
theorem State.lives_of_caller {s : State Dispatcher Observer Tid} {thread : Tid}
    {phase : CallerPhase Dispatcher Observer} (hphase : s.callers thread = phase)
    {object : Object Dispatcher Observer} (href : phase.refers object) : s.lives object :=
  State.lives_iff.mpr (.inr (.inr ⟨thread, by rw [hphase]; exact href⟩))

/-- A step of the loop of `subscribe` keeps every reference backed. -/
theorem State.Backed.subscribeStep {s : State Dispatcher Observer Tid} (h : s.Backed)
    (hlocked : s.Locked) {thread : Tid} {dispatcher : Dispatcher} {observer : Observer}
    {index : Nat} {scan : Scan Dispatcher Observer}
    (hphase : s.callers thread = .subscribing dispatcher observer index scan) :
    let next := s.subscribeStep thread dispatcher observer index scan
    next.Backed ∧ ∀ object, s.lives object →
      next.lives object ∨ s.ReturnedWith next thread object := by
  have hinside : (s.callers thread).scans = true := by rw [hphase]; rfl
  have hothers := hlocked.others_refer_to_nothing hinside
  have hthread := (s.callFrame_subscribeStep thread dispatcher observer index scan).observerThread
  obtain ⟨howners, ⟨later, after, hcallers, hlocks⟩ | ⟨result, hcallers⟩⟩ :=
    s.locks_subscribeStep thread dispatcher observer index scan
  · refine h.stays (hlocked.thread_outside hinside) hothers howners hthread hcallers ?_ ?_
    · intro object hargued
      rw [hphase] at hargued
      cases object <;> exact hargued
    · intro object href
      cases object with
      | dispatcher d =>
        obtain hbefore | hlock := hlocks.dispatcher d (of_decide_eq_true href)
        · exact State.lives_of_caller hphase (decide_eq_true hbefore)
        · exact (State.lockDispatcher_eq_some hlock).2
      | observer o =>
        obtain hbefore | hlock := hlocks.observer o (of_decide_eq_true href)
        · exact State.lives_of_caller hphase (decide_eq_true hbefore)
        · exact (State.lockObserver_eq_some hlock).2
  · exact h.returns (hlocked.thread_outside hinside) hothers howners hthread hcallers

/-- A step of the loop of `unsubscribe` keeps every reference backed. -/
theorem State.Backed.unsubscribeStep {s : State Dispatcher Observer Tid} (h : s.Backed)
    (hlocked : s.Locked) {thread : Tid} {observer : Observer} {index : Nat}
    {scan : Scan Dispatcher Observer}
    (hphase : s.callers thread = .unsubscribing observer index scan) :
    let next := s.unsubscribeStep thread observer index scan
    next.Backed ∧ ∀ object, s.lives object →
      next.lives object ∨ s.ReturnedWith next thread object := by
  have hinside : (s.callers thread).scans = true := by rw [hphase]; rfl
  have hothers := hlocked.others_refer_to_nothing hinside
  have hthread := (s.callFrame_unsubscribeStep thread observer index scan).observerThread
  obtain ⟨howners, ⟨later, after, hcallers, hnone, hlocks⟩ | ⟨result, hcallers⟩⟩ :=
    s.locks_unsubscribeStep thread observer index scan
  · refine h.stays (hlocked.thread_outside hinside) hothers howners hthread hcallers ?_ ?_
    · intro object hargued
      rw [hphase] at hargued
      cases object <;> exact hargued
    · intro object href
      cases object with
      | dispatcher d =>
        have hrefers : after.dispatcher = some d := of_decide_eq_true href
        rw [hnone] at hrefers
        cases hrefers
      | observer o =>
        obtain hbefore | hlock := hlocks o (of_decide_eq_true href)
        · exact State.lives_of_caller hphase (decide_eq_true hbefore)
        · exact (State.lockObserver_eq_some hlock).2
  · exact h.returns (hlocked.thread_outside hinside) hothers howners hthread hcallers

/-- A step of a call destroys nothing but the arguments it returns with. -/
theorem State.Backed.callerStep {s next : State Dispatcher Observer Tid} (h : s.Backed)
    (hlocked : s.Locked) {thread : Tid} (hstep : s.callerStep thread = some next) :
    next.Backed ∧ ∀ object, s.lives object →
      next.lives object ∨ s.ReturnedWith next thread object := by
  obtain ⟨_, hfree, _, hnext⟩ | hloop | hloop := State.callerStep_cases hstep
  · have hscans : s.observerThread.scans = false := hlocked.all_outside hfree .observerThread
    have hothers (other : Tid) (object : Object Dispatcher Observer) (_ : other ≠ thread) :
        (s.callers other).refers object = false :=
      CallerPhase.refers_of_not_scans (hlocked.all_outside hfree (.caller other)) object
    obtain rfl | ⟨phase, rfl, hphase⟩ := hnext
    · exact h.returns hscans hothers ⟨rfl, rfl⟩ rfl rfl
    · refine h.stays hscans hothers ⟨rfl, rfl⟩ rfl rfl ?_ ?_
      · intro object hargued
        obtain ⟨_, _, hbefore, rfl⟩ | ⟨_, hbefore, rfl⟩ := hphase
        · rw [hbefore] at hargued
          cases object <;> exact hargued
        · rw [hbefore] at hargued
          cases object <;> exact hargued
      · intro object href
        obtain ⟨_, _, _, rfl⟩ | ⟨_, _, rfl⟩ := hphase
        · rw [CallerPhase.refers, Scan.refers_lockingDispatcher] at href
          cases href
        · cases object <;> cases href
  · obtain ⟨dispatcher, observer, index, scan, hphase, rfl⟩ := hloop
    exact h.subscribeStep hlocked hphase
  · obtain ⟨observer, index, scan, hphase, rfl⟩ := hloop
    exact h.unsubscribeStep hlocked hphase

omit [DecidableEq Tid] in
/-- What will be copied stays so as long as its objects live. -/
theorem State.willCopy_mono {s next : State Dispatcher Observer Tid}
    (hobservers : next.manager.observers = s.manager.observers)
    (hlives : ∀ object, s.lives object → next.lives object) {index : Nat}
    {scan : Scan Dispatcher Observer} (hcopy : s.willCopy index scan) :
    next.willCopy index scan := by
  cases scan with
  | lockingObserver dispatcher =>
    cases dispatcher with
    | none => cases hcopy
    | some d =>
      obtain ⟨o, hlock⟩ := Option.isSome_iff_exists.mp hcopy
      obtain ⟨entry, hentry, halive⟩ := Option.bind_eq_some_iff.mp hlock
      rw [Option.ite_none_right_eq_some] at halive
      have hlater : next.observerAlive entry.observer = true :=
        hlives (.observer entry.observer) halive.1
      simp only [State.willCopy, State.lockObserver, hobservers, hentry, Option.bind_some, hlater]
      rfl
  | deciding dispatcher observer =>
    cases dispatcher with
    | none => cases hcopy
    | some d =>
      cases observer with
      | none => cases hcopy
      | some o => rfl
  | lockingDispatcher | releasingObserver | releasingDispatcher => cases hcopy

omit [DecidableEq Tid] in
/-- A step outside the loops that gives up no reference. -/
theorem State.Backed.frame {s next : State Dispatcher Observer Tid} (h : s.Backed)
    (hobservers : next.manager.observers = s.manager.observers) (hgrows : s.Grows next)
    (hthread : next.observerThread = s.observerThread ∨
      (∀ object, s.observerThread.refers object = false) ∧
        ∀ object, next.observerThread.refers object = false)
    (hcallers : ∀ thread object, (next.callers thread).refers object =
      (s.callers thread).refers object) :
    next.Backed ∧ ∀ object, s.lives object → next.lives object := by
  have hlives (object : Object Dispatcher Observer) (hlive : s.lives object) :
      next.lives object := by
    obtain hpinned | href | ⟨thread, href⟩ := State.lives_iff.mp hlive
    · exact State.lives_iff.mpr (.inl (hgrows.pinned hpinned))
    · obtain hsame | ⟨hnone, _⟩ := hthread
      · exact State.lives_iff.mpr (.inr (.inl (by rw [hsame]; exact href)))
      · rw [hnone] at href
        cases href
    · exact State.lives_iff.mpr (.inr (.inr ⟨thread, by rw [hcallers]; exact href⟩))
  refine ⟨fun object hdropped => ?_, hlives⟩
  apply hgrows.pinned
  apply h
  obtain ⟨_, _, index, scan, hphase, href, hkept⟩ | ⟨thread, href⟩ := State.drops_iff.mp hdropped
  · obtain hsame | ⟨_, hnone⟩ := hthread
    · rw [hsame] at hphase
      refine State.drops_iff.mpr (.inl ⟨_, _, index, scan, hphase, href, ?_⟩)
      rw [Bool.eq_false_iff] at hkept ⊢
      exact fun hcopy => hkept (State.willCopy_mono hobservers hlives hcopy)
    · have hrefers := hnone object
      rw [hphase, ObserverPhase.refers, href] at hrefers
      cases hrefers
  · exact State.drops_iff.mpr (.inr ⟨thread, by rw [← hcallers]; exact href⟩)

/-- A thread outside the methods has no arguments of theirs. -/
theorem CallerPhase.argues_of_outside
    {phase : CallerPhase Dispatcher Observer} (houtside : phase.outside)
    (object : Object Dispatcher Observer) : phase.argues object = false := by
  cases phase with
  | idle | returned => cases object <;> rfl
  | _ => cases houtside

/-- An owner that takes a reference. -/
theorem State.Grows.of_owner {s next : State Dispatcher Observer Tid}
    {action : Action Dispatcher Observer Tid} (howner : action.isOwner)
    (hkeeps : s.letsGo action = false) (hstep : s.step action = some next) : s.Grows next := by
  cases action with
  | retainDispatcher dispatcher =>
    simp only [State.step, Option.ite_none_right_eq_some, Option.some.injEq] at hstep
    obtain ⟨_, rfl⟩ := hstep
    refine ⟨fun object howned => ?_, fun _ hcopies => hcopies, fun _ _ hargues => hargues⟩
    cases object with
    | dispatcher d =>
      by_cases hd : d = dispatcher
      · simp [State.owned, hd]
      · simp only [State.owned, Function.update_of_ne hd]
        exact howned
    | observer o => exact howned
  | retainObserver observer =>
    simp only [State.step, Option.ite_none_right_eq_some, Option.some.injEq] at hstep
    obtain ⟨_, rfl⟩ := hstep
    refine ⟨fun object howned => ?_, fun _ hcopies => hcopies, fun _ _ hargues => hargues⟩
    cases object with
    | dispatcher d => exact howned
    | observer o =>
      by_cases ho : o = observer
      · simp [State.owned, ho]
      · simp only [State.owned, Function.update_of_ne ho]
        exact howned
  | releaseDispatcher | releaseObserver => cases hkeeps
  | _ => cases howner

/-- A step that gives up no reference outside the locks keeps the loops backed, and the only
objects to go are the arguments of a call that returns. -/
theorem State.Backed.keeps {s next : State Dispatcher Observer Tid} (h : s.Backed)
    (hlocked : s.Locked) {action : Action Dispatcher Observer Tid}
    (hkeeps : s.letsGo action = false) (hstep : s.step action = some next) :
    next.Backed ∧ ∀ object, s.lives object → next.lives object ∨
      ∃ thread, action = .callerStep thread ∧ s.ReturnedWith next thread object := by
  have hkept (hframe : next.Backed ∧ ∀ object, s.lives object → next.lives object) :
      next.Backed ∧ ∀ object, s.lives object → next.lives object ∨
        ∃ thread, action = .callerStep thread ∧ s.ReturnedWith next thread object :=
    hframe.imp_right fun hlives object hlive => .inl (hlives object hlive)
  cases State.turn_of_step hstep with
  | elsewhere hframe hdispatchers hobservers hthread =>
    have howners : s.SameOwners next := ⟨hdispatchers, hobservers⟩
    have hcopied : next.observerThread.copied = s.observerThread.copied := by
      obtain hsame | ⟨hbefore, hafter⟩ := hthread
      · rw [hsame]
      · rw [ObserverPhase.copied_of_resting hbefore, ObserverPhase.copied_of_resting hafter]
    refine hkept (h.frame hframe.observers (.of_sameOwners howners ?_ fun object thread hargues => ?_)
      ?_ fun thread object => by rw [hframe.callers])
    · exact fun pair hpair => hcopied ▸ hpair
    · rw [hframe.callers]
      exact hargues
    · refine hthread.imp_right fun hresting => ⟨fun object => ?_, fun object => ?_⟩
      · exact ObserverPhase.refers_of_not_scans (ObserverPhase.scans_of_resting hresting.1) object
      · exact ObserverPhase.refers_of_not_scans (ObserverPhase.scans_of_resting hresting.2) object
  | owner hframe hthread howner =>
    exact hkept (h.frame hframe.observers (.of_owner howner hkeeps hstep) (.inl hthread)
      fun thread object => by rw [hframe.callers])
  | call thread phase houtside hscans _ _ hnext =>
    subst hnext
    refine hkept (h.frame rfl ⟨fun _ howned => howned, fun _ hcopies => hcopies,
      fun object other hargued => ?_⟩ (.inl rfl) fun other object => ?_)
    · by_cases hother : other = thread
      · rw [hother, CallerPhase.argues_of_outside houtside] at hargued
        cases hargued
      · simp only [State.setCaller, Function.update_of_ne hother]
        exact hargued
    · by_cases hother : other = thread
      · simp only [State.setCaller, hother, Function.update_self]
        rw [CallerPhase.refers_of_not_scans hscans,
          CallerPhase.refers_of_not_scans (CallerPhase.scans_of_outside houtside)]
      · simp only [State.setCaller, Function.update_of_ne hother]
  | callerStep thread hcaller =>
    obtain ⟨hbacked, hlives⟩ := h.callerStep hlocked hcaller
    refine ⟨hbacked, fun object hlive => ?_⟩
    exact (hlives object hlive).imp_right fun hreturned => ⟨thread, rfl, hreturned⟩
  | scan notification healthyObservers index scan hphase hnext =>
    subst hnext
    exact hkept (h.snapshotStep hlocked hphase)
  | lock notification hphase _ hnext =>
    subst hnext
    refine hkept (h.frame rfl (.of_sameOwners ⟨rfl, rfl⟩ ?_ fun _ _ hargues => hargues)
      (.inr ⟨fun object => by rw [hphase]; rfl, fun object => ?_⟩) fun _ _ => rfl)
    · rw [hphase]
      exact fun pair hpair => hpair
    · exact Scan.refers_lockingDispatcher object
  | dispatch _ _ _ _ hphase _ hnext | resume _ _ _ hphase hnext =>
    subst hnext
    refine hkept (h.frame rfl (.of_sameOwners ⟨rfl, rfl⟩ ?_ fun _ _ hargues => hargues)
      (.inr ⟨fun object => by rw [hphase]; rfl, fun _ => rfl⟩) fun _ _ => rfl)
    rw [hphase]
    exact fun pair hpair => hpair
  | finish notification healthyObservers index hphase hend =>
    simp [State.letsGo, hphase, hend] at hkeeps

end spdlogger.ride_state_manager
