import Spdlogger.RideStateManager.UserCode

namespace spdlogger.ride_state_manager

/-- The next step of the loop that holds the reference. -/
def Holder.action {Dispatcher Observer Tid : Type} : Holder Tid → Action Dispatcher Observer Tid
  | .observerThread => .observerStep
  | .caller thread => .callerStep thread

/-- How far an iteration has come. -/
def Scan.rank {Dispatcher Observer : Type} : Scan Dispatcher Observer → Nat
  | .lockingDispatcher => 0
  | .lockingObserver _ => 1
  | .deciding _ _ => 2
  | .releasingObserver _ _ _ => 3
  | .releasingDispatcher _ _ => 4

/-- An iteration is at its end with rank 4. -/
theorem Scan.rank_le {Dispatcher Observer : Type} (scan : Scan Dispatcher Observer) :
    scan.rank ≤ 4 := by
  cases scan <;> simp [Scan.rank]

variable {Dispatcher Observer Tid : Type} [DecidableEq Dispatcher] [DecidableEq Observer]
  [Fintype Tid] [DecidableEq Tid]

/-- A loop is going to drop the only reference to an object. -/
inductive State.Doomed (s : State Dispatcher Observer Tid) (object : Object Dispatcher Observer) :
    Holder Tid → Nat → Prop where
  | thread (notification : NotificationData) (healthyObservers : List (Dispatcher × Observer))
      (index : Nat) (scan : Scan Dispatcher Observer)
      (hphase : s.observerThread = .scanning notification healthyObservers index scan)
      (href : scan.refers object) (hdrop : s.willCopy index scan = false) :
      Doomed s object .observerThread scan.rank
  | subscribing (thread : Tid) (dispatcher : Dispatcher) (observer : Observer) (index : Nat)
      (scan : Scan Dispatcher Observer)
      (hphase : s.callers thread = .subscribing dispatcher observer index scan)
      (href : scan.refers object) : Doomed s object (.caller thread) scan.rank
  | unsubscribing (thread : Tid) (observer : Observer) (index : Nat)
      (scan : Scan Dispatcher Observer)
      (hphase : s.callers thread = .unsubscribing observer index scan)
      (href : scan.refers object) : Doomed s object (.caller thread) scan.rank

omit [DecidableEq Tid] in
/-- Where a reference is not backed, a loop is going to drop the only one to some object. -/
theorem State.exists_doomed {s : State Dispatcher Observer Tid} (h : ¬ s.Backed) :
    ∃ object holder rank, s.pinned object = false ∧ s.Doomed object holder rank := by
  unfold State.Backed at h
  simp only [not_forall] at h
  obtain ⟨object, hdropped, hunpinned⟩ := h
  refine ⟨object, ?_⟩
  obtain ⟨_, _, _, _, hphase, href, hdrop⟩ | ⟨thread, href⟩ := State.drops_iff.mp hdropped
  · exact ⟨_, _, Bool.eq_false_iff.mpr hunpinned, .thread _ _ _ _ hphase href hdrop⟩
  · cases hphase : s.callers thread with
    | subscribing =>
      rw [hphase] at href
      exact ⟨_, _, Bool.eq_false_iff.mpr hunpinned, .subscribing thread _ _ _ _ hphase href⟩
    | unsubscribing =>
      rw [hphase] at href
      exact ⟨_, _, Bool.eq_false_iff.mpr hunpinned, .unsubscribing thread _ _ _ hphase href⟩
    | _ =>
      rw [hphase] at href
      cases href

omit [DecidableEq Tid] in
/-- An object without a reference is gone. -/
theorem State.not_lives {s : State Dispatcher Observer Tid} {object : Object Dispatcher Observer}
    (hunpinned : s.pinned object = false) (hthread : s.observerThread.refers object = false)
    (hcallers : ∀ thread, (s.callers thread).refers object = false) : s.lives object = false := by
  rw [Bool.eq_false_iff]
  intro hlives
  obtain hpinned | href | ⟨thread, href⟩ := State.lives_iff.mp hlives
  · rw [hunpinned] at hpinned
    cases hpinned
  · rw [hthread] at href
    cases href
  · rw [hcallers] at href
    cases href

omit [DecidableEq Tid] in
/-- What has no pin after a step that keeps pins had none before. -/
theorem State.Grows.not_pinned {s next : State Dispatcher Observer Tid} (h : s.Grows next)
    {object : Object Dispatcher Observer} (hunpinned : next.pinned object = false) :
    s.pinned object = false := by
  rw [Bool.eq_false_iff] at hunpinned ⊢
  exact fun hpinned => hunpinned (h.pinned hpinned)

/-- The step of a loop destroys the object, or it brings the loop closer to it. -/
def State.Closer (next : State Dispatcher Observer Tid) (object : Object Dispatcher Observer)
    (holder : Holder Tid) (rank : Nat) : Prop :=
  next.lives object = false ∨
    next.pinned object = false ∧ ∃ later, rank < later ∧ next.Doomed object holder later

omit [DecidableEq Tid] in
/-- The observer thread's loop comes closer to the drop, or makes it. -/
theorem State.closer_snapshotStep {s : State Dispatcher Observer Tid} (hlocked : s.Locked)
    {notification : NotificationData} {healthyObservers : List (Dispatcher × Observer)}
    {index : Nat} {scan : Scan Dispatcher Observer}
    (hphase : s.observerThread = .scanning notification healthyObservers index scan)
    {object : Object Dispatcher Observer} (hunpinned : s.pinned object = false)
    (href : scan.refers object) (hdrop : s.willCopy index scan = false) :
    (s.snapshotStep notification healthyObservers index scan).Closer object .observerThread
      scan.rank := by
  have hout (thread : Tid) := hlocked.callers_refer_to_nothing hphase thread object
  have hpins {next : State Dispatcher Observer Tid} (howners : s.SameOwners next)
      (hcallers : next.callers = s.callers)
      (hcopied : next.observerThread.copied = healthyObservers) : next.pinned object = false := by
    refine State.Grows.not_pinned (.of_sameOwners howners.symm ?_ ?_) hunpinned
    · rw [hcopied, hphase]
      exact fun _ hpair => hpair
    · rw [hcallers]
      exact fun _ _ hargues => hargues
  have hgone {next : State Dispatcher Observer Tid} (howners : s.SameOwners next)
      (hcallers : next.callers = s.callers)
      (hcopied : next.observerThread.copied = healthyObservers)
      (hnone : next.observerThread.refers object = false) :
      next.Closer object .observerThread scan.rank :=
    .inl (State.not_lives (hpins howners hcallers hcopied) hnone (by rw [hcallers]; exact hout))
  have hcloser {next : State Dispatcher Observer Tid} {later : Nat}
      {after : Scan Dispatcher Observer}
      (hnext : next.observerThread = .scanning notification healthyObservers later after)
      (howners : s.SameOwners next) (hcallers : next.callers = s.callers)
      (hrank : scan.rank < after.rank) (hrefers : after.refers object)
      (hdrops : next.willCopy later after = false) : next.Closer object .observerThread scan.rank :=
    .inr ⟨hpins howners hcallers (by rw [hnext]; rfl), after.rank, hrank,
      .thread _ _ _ _ hnext hrefers hdrops⟩
  cases scan with
  | lockingDispatcher =>
    rw [Scan.refers_lockingDispatcher] at href
    cases href
  | lockingObserver dispatcher =>
    cases object with
    | dispatcher d =>
      obtain rfl : dispatcher = some d := of_decide_eq_true href
      have hlock : s.lockObserver index = none := by simpa [State.willCopy] using hdrop
      refine hcloser rfl ⟨rfl, rfl⟩ rfl (by simp [Scan.rank]) href ?_
      rw [hlock]
      rfl
    | observer o => simp [Scan.refers, Scan.observer] at href
  | deciding dispatcher observer =>
    cases dispatcher with
    | some d =>
      cases observer with
      | some o => cases hdrop
      | none => exact hcloser rfl ⟨rfl, rfl⟩ rfl (by simp [Scan.rank]) href rfl
    | none => exact hcloser rfl ⟨rfl, rfl⟩ rfl (by simp [Scan.rank]) href rfl
  | releasingObserver dispatcher observer found =>
    cases object with
    | dispatcher d => exact hcloser rfl ⟨rfl, rfl⟩ rfl (by simp [Scan.rank]) href rfl
    | observer o => exact hgone ⟨rfl, rfl⟩ rfl rfl rfl
  | releasingDispatcher dispatcher found =>
    exact hgone ⟨rfl, rfl⟩ rfl rfl (Scan.refers_lockingDispatcher object)

section Caller

variable {s next : State Dispatcher Observer Tid} {thread : Tid}
  {phase : CallerPhase Dispatcher Observer} {object : Object Dispatcher Observer}

/-- A step of a call pins no object that was not pinned. -/
theorem State.not_pinned_of_caller (hunpinned : s.pinned object = false)
    (howners : s.SameOwners next) (hthread : next.observerThread = s.observerThread)
    (hcallers : next.callers = Function.update s.callers thread phase)
    (hargues : ∀ object, phase.argues object → (s.callers thread).argues object) :
    next.pinned object = false := by
  refine State.Grows.not_pinned (.of_sameOwners howners.symm ?_ fun argument other hargued => ?_) hunpinned
  · rw [hthread]
    exact fun _ hpair => hpair
  · by_cases hother : other = thread
    · rw [hother, hcallers, Function.update_self] at hargued
      exact hother ▸ hargues argument hargued
    · rw [hcallers, Function.update_of_ne hother] at hargued
      exact hargued

/-- A call drops the only reference to an object. -/
theorem State.not_lives_of_caller (hlocked : s.Locked) (hinside : (s.callers thread).scans)
    (hunpinned : s.pinned object = false) (howners : s.SameOwners next)
    (hthread : next.observerThread = s.observerThread)
    (hcallers : next.callers = Function.update s.callers thread phase)
    (hargues : ∀ object, phase.argues object → (s.callers thread).argues object)
    (hnone : phase.refers object = false) : next.lives object = false := by
  have hstill := State.not_pinned_of_caller hunpinned howners hthread hcallers hargues
  refine State.not_lives hstill ?_ fun other => ?_
  · rw [hthread]
    exact ObserverPhase.refers_of_not_scans (hlocked.thread_outside hinside) object
  · by_cases hother : other = thread
    · rw [hother, hcallers, Function.update_self]
      exact hnone
    · rw [hcallers, Function.update_of_ne hother]
      exact hlocked.others_refer_to_nothing hinside other object hother

/-- A call goes on, still with the reference. -/
theorem State.closer_of_caller (hunpinned : s.pinned object = false) (howners : s.SameOwners next)
    (hthread : next.observerThread = s.observerThread)
    (hcallers : next.callers = Function.update s.callers thread phase)
    (hargues : ∀ object, phase.argues object → (s.callers thread).argues object) {rank later : Nat}
    (hrank : rank < later) (hdoomed : next.Doomed object (.caller thread) later) :
    next.Closer object (.caller thread) rank :=
  .inr ⟨State.not_pinned_of_caller hunpinned howners hthread hcallers hargues, later, hrank, hdoomed⟩

omit [Fintype Tid] [DecidableEq Tid] in
theorem State.argues_of_subscribing {dispatcher : Dispatcher} {observer : Observer}
    {index later : Nat} {scan after : Scan Dispatcher Observer}
    (hphase : s.callers thread = .subscribing dispatcher observer index scan)
    (argument : Object Dispatcher Observer)
    (hargued : (CallerPhase.subscribing dispatcher observer later after).argues argument) :
    (s.callers thread).argues argument := by
  rw [hphase]
  cases argument <;> exact hargued

omit [Fintype Tid] [DecidableEq Tid] in
theorem State.argues_of_unsubscribing {observer : Observer} {index later : Nat}
    {scan after : Scan Dispatcher Observer}
    (hphase : s.callers thread = .unsubscribing observer index scan)
    (argument : Object Dispatcher Observer)
    (hargued : (CallerPhase.unsubscribing observer later after).argues argument) :
    (s.callers thread).argues argument := by
  rw [hphase]
  cases argument <;> exact hargued

omit [Fintype Tid] [DecidableEq Tid] in
/-- A call that has returned has no arguments left. -/
theorem State.argues_of_returned {result : Bool} (argument : Object Dispatcher Observer)
    (hargued : (CallerPhase.returned result).argues argument) :
    (s.callers thread).argues argument := by
  rw [CallerPhase.argues_of_outside rfl] at hargued
  cases hargued

end Caller

/-- The loop of `subscribe` comes closer to the drop, or makes it. -/
theorem State.closer_subscribeStep {s : State Dispatcher Observer Tid} (hlocked : s.Locked)
    {thread : Tid} {dispatcher : Dispatcher} {observer : Observer} {index : Nat}
    {scan : Scan Dispatcher Observer}
    (hphase : s.callers thread = .subscribing dispatcher observer index scan)
    {object : Object Dispatcher Observer} (hunpinned : s.pinned object = false)
    (href : scan.refers object) :
    (s.subscribeStep thread dispatcher observer index scan).Closer object (.caller thread)
      scan.rank := by
  have hinside : (s.callers thread).scans = true := by
    rw [hphase]
    rfl
  have hgone {next : State Dispatcher Observer Tid} {phase : CallerPhase Dispatcher Observer}
      (hcallers : next.callers = Function.update s.callers thread phase)
      (howners : s.SameOwners next) (hthread : next.observerThread = s.observerThread) :=
    State.not_lives_of_caller hlocked hinside hunpinned howners hthread hcallers
  have hcloser {next : State Dispatcher Observer Tid} {later : Nat}
      {after : Scan Dispatcher Observer} (hcallers : next.callers =
        Function.update s.callers thread (.subscribing dispatcher observer later after))
      (howners : s.SameOwners next) (hthread : next.observerThread = s.observerThread)
      (hrank : scan.rank < after.rank) (hrefers : after.refers object) :
      next.Closer object (.caller thread) scan.rank := by
    refine State.closer_of_caller hunpinned howners hthread hcallers
      (State.argues_of_subscribing hphase) hrank
      (.subscribing thread dispatcher observer later after ?_ hrefers)
    rw [hcallers, Function.update_self]
  cases scan with
  | lockingDispatcher =>
    rw [Scan.refers_lockingDispatcher] at href
    cases href
  | lockingObserver currentDispatcher =>
    cases object with
    | dispatcher d => exact hcloser rfl ⟨rfl, rfl⟩ rfl (by simp [Scan.rank]) href
    | observer o => simp [Scan.refers, Scan.observer] at href
  | deciding currentDispatcher currentObserver =>
    cases currentDispatcher with
    | some d =>
      cases currentObserver with
      | some o => exact hcloser rfl ⟨rfl, rfl⟩ rfl (by simp [Scan.rank]) href
      | none => exact hcloser rfl ⟨rfl, rfl⟩ rfl (by simp [Scan.rank]) href
    | none => exact hcloser rfl ⟨rfl, rfl⟩ rfl (by simp [Scan.rank]) href
  | releasingObserver currentDispatcher currentObserver found =>
    cases object with
    | dispatcher d => exact hcloser rfl ⟨rfl, rfl⟩ rfl (by simp [Scan.rank]) href
    | observer o => exact .inl (hgone rfl ⟨rfl, rfl⟩ rfl (State.argues_of_subscribing hphase) rfl)
  | releasingDispatcher currentDispatcher found =>
    cases found with
    | true => exact .inl (hgone rfl ⟨rfl, rfl⟩ rfl State.argues_of_returned rfl)
    | false =>
      exact .inl (hgone rfl ⟨rfl, rfl⟩ rfl (State.argues_of_subscribing hphase)
        (Scan.refers_lockingDispatcher object))

/-- The loop of `unsubscribe` comes closer to the drop, or makes it. -/
theorem State.closer_unsubscribeStep {s : State Dispatcher Observer Tid} (hlocked : s.Locked)
    {thread : Tid} {observer : Observer} {index : Nat} {scan : Scan Dispatcher Observer}
    (hphase : s.callers thread = .unsubscribing observer index scan)
    {object : Object Dispatcher Observer} (hunpinned : s.pinned object = false)
    (href : scan.refers object) :
    (s.unsubscribeStep thread observer index scan).Closer object (.caller thread) scan.rank := by
  have hinside : (s.callers thread).scans = true := by
    rw [hphase]
    rfl
  have hgone {next : State Dispatcher Observer Tid} {phase : CallerPhase Dispatcher Observer}
      (hcallers : next.callers = Function.update s.callers thread phase)
      (howners : s.SameOwners next) (hthread : next.observerThread = s.observerThread) :=
    State.not_lives_of_caller hlocked hinside hunpinned howners hthread hcallers
  have hcloser {next : State Dispatcher Observer Tid} {o : Observer} {later : Nat}
      (hcallers : next.callers = Function.update s.callers thread
        (.unsubscribing observer later (.releasingObserver none (some o) false)))
      (howners : s.SameOwners next) (hthread : next.observerThread = s.observerThread)
      (hobserver : scan.observer = some o) (hrank : scan.rank < 3) :
      next.Closer object (.caller thread) scan.rank := by
    cases object with
    | dispatcher d =>
      -- `unsubscribe` locks no dispatcher.
      exact .inl (hgone hcallers howners hthread (State.argues_of_unsubscribing hphase) rfl)
    | observer o' =>
      obtain rfl : o = o' := by simpa [Scan.refers, hobserver] using href
      refine State.closer_of_caller hunpinned howners hthread hcallers
        (State.argues_of_unsubscribing hphase) hrank (.unsubscribing thread observer later
          (.releasingObserver none (some o) false) ?_ (decide_eq_true rfl))
      rw [hcallers, Function.update_self]
  have hmove := s.unsubscribeMove thread observer index scan
  generalize s.unsubscribeStep thread observer index scan = next at hmove ⊢
  cases hmove with
  | lockObserver _ hlocking =>
    refine .inl (hgone rfl ⟨rfl, rfl⟩ rfl (State.argues_of_unsubscribing hphase) ?_)
    cases object with
    | dispatcher d => rfl
    | observer o => simp [Scan.refers, Scan.observer_of_locking hlocking] at href
  | finish => exact .inl (hgone rfl ⟨rfl, rfl⟩ rfl State.argues_of_returned rfl)
  | erase | pass => exact hcloser rfl ⟨rfl, rfl⟩ rfl rfl (by simp [Scan.rank])
  | eraseExpired | next =>
    refine .inl (hgone rfl ⟨rfl, rfl⟩ rfl (State.argues_of_unsubscribing hphase) ?_)
    cases object <;> rfl

/-- The next step of the loop brings the drop closer, or destroys the object under the lock. -/
theorem State.Doomed.step {s : State Dispatcher Observer Tid} (hlocked : s.Locked)
    {object : Object Dispatcher Observer} (hunpinned : s.pinned object = false)
    {holder : Holder Tid} {rank : Nat} (h : s.Doomed object holder rank) :
    ∃ next, s.step holder.action = some next ∧ next.Closer object holder rank := by
  cases h with
  | thread notification healthyObservers index scan hphase href hdrop =>
    refine ⟨s.snapshotStep notification healthyObservers index scan, ?_,
      State.closer_snapshotStep hlocked hphase hunpinned href hdrop⟩
    simp only [Holder.action, State.step, State.observerStep, hphase]
  | subscribing thread dispatcher observer index scan hphase href =>
    refine ⟨s.subscribeStep thread dispatcher observer index scan, ?_,
      State.closer_subscribeStep hlocked hphase hunpinned href⟩
    simp only [Holder.action, State.step, State.callerStep, hphase]
  | unsubscribing thread observer index scan hphase href =>
    refine ⟨s.unsubscribeStep thread observer index scan, ?_,
      State.closer_unsubscribeStep hlocked hphase hunpinned href⟩
    simp only [Holder.action, State.step, State.callerStep, hphase]

omit [DecidableEq Tid] in
/-- A doomed object is alive, it is no argument, and its loop has the lock. -/
theorem State.Doomed.underLock {s : State Dispatcher Observer Tid} (hlocked : s.Locked)
    {object : Object Dispatcher Observer} {holder : Holder Tid} {rank : Nat}
    (h : s.Doomed object holder rank) (next : State Dispatcher Observer Tid) :
    s.lives object ∧ s.UnderLock next holder.action ∧ rank ≤ 4 := by
  cases h with
  | thread notification healthyObservers index scan hphase href =>
    have hinside : s.inside .observerThread = true := by rw [State.inside, hphase]; rfl
    refine ⟨State.lives_iff.mpr (.inr (.inl (by rw [hphase]; exact href))), ?_, scan.rank_le⟩
    exact .observerThread (.inl ((hlocked.observers .observerThread).mp hinside))
  | subscribing thread dispatcher observer index scan hphase href =>
    exact ⟨State.lives_of_caller hphase href, .caller thread, scan.rank_le⟩
  | unsubscribing thread observer index scan hphase href =>
    exact ⟨State.lives_of_caller hphase href, .caller thread, scan.rank_le⟩

/-- Whoever gives up references outside the locks without care leaves a loop with the only
reference to an object. Unless somebody else intervenes, the next steps of that loop's thread
destroy the object under the lock. -/
theorem State.exists_user_code_of_careless {s next : State Dispatcher Observer Tid}
    (hreach : (rideMachine Dispatcher Observer Tid).Reachable s)
    {action : Action Dispatcher Observer Tid} (hcareless : ¬ s.Careful action)
    (hstep : s.step action = some next) :
    ∃ (holder : Holder Tid) (count : Nat) (before after : State Dispatcher Observer Tid),
      (rideMachine Dispatcher Observer Tid).run next (List.replicate count holder.action) =
        some before ∧
      before.step holder.action = some after ∧ before.UnderLock after holder.action ∧
      ¬ before.NoUserCode after holder.action := by
  have hunbacked : ¬ next.Backed := by
    intro hbacked
    apply hcareless
    intro _ other hother
    rw [hstep, Option.mem_some_iff] at hother
    exact hother ▸ hbacked
  obtain ⟨object, holder, rank, hunpinned, hdoomed⟩ := State.exists_doomed hunbacked
  refine ⟨holder, ?_⟩
  have hnext : (rideMachine Dispatcher Observer Tid).Reachable next := hreach.step hstep
  clear hstep hcareless hunbacked
  -- The iteration has at most four steps left.
  induction hleft : 4 - rank using Nat.strong_induction_on generalizing next rank with
  | _ left ih =>
    have hlocked := State.locked_of_reachable hnext
    obtain ⟨after, hstep, hcloser⟩ := hdoomed.step hlocked hunpinned
    obtain ⟨hlives, hlock, hrank⟩ := hdoomed.underLock hlocked after
    obtain hgone | ⟨hstill, later, hlater, hdoomedLater⟩ := hcloser
    · refine ⟨0, next, after, rfl, hstep, hlock, fun hquiet => ?_⟩
      obtain hkept | ⟨thread, _, hargued, _⟩ := hquiet.objects object hlives
      · rw [hgone] at hkept
        cases hkept
      · have hpinned : next.pinned object = true :=
          State.pinned_iff.mpr (.inr (.inr ⟨thread, hargued⟩))
        rw [hunpinned] at hpinned
        cases hpinned
    · have hafter : (rideMachine Dispatcher Observer Tid).Reachable after := hnext.step hstep
      have hlaterRank := (hdoomedLater.underLock (State.locked_of_reachable hafter) after).2.2
      obtain ⟨count, before, last, hrun, hlast⟩ :=
        ih (4 - later) (by omega) later hstill hdoomedLater hafter rfl
      refine ⟨count + 1, before, last, ?_, hlast⟩
      have hfirst : (rideMachine Dispatcher Observer Tid).step next holder.action = some after := hstep
      rw [List.replicate_succ, transition.Machine.run, hfirst]
      exact hrun

end spdlogger.ride_state_manager
