import Spdlogger.ExpiringCache.Moves
import Spdlogger.Library.Threads

namespace spdlogger.expiring_cache

variable {Key Value Tid : Type} [DecidableEq Key] [DecidableEq Tid] {Q : ExpirationQueue Key}

/-- What the steps outside `stop` leave alone. -/
structure State.StopFrame (s next : State Q Value Tid) : Prop where
  stoppers : next.stoppers = s.stoppers
  joinable : next.joinable = s.joinable
  joins : next.joins = s.joins
  stopping : s.cache.isStopping = true → next.cache.isStopping = true
  exited : s.handler = .exited → next.handler = .exited

/-- No step outside `stop` touches what the stoppers rely on. -/
theorem State.stopFrame_of_step {s next : State Q Value Tid} {action : Action Key Value Tid}
    (hother : ∀ thread, action ≠ .stopStep thread) (hstep : s.step action = some next) :
    s.StopFrame next := by
  cases State.move_of_step hstep with
  | enter thread | notify thread | pass thread | skip thread | join thread | joinAgain thread =>
    exact absurd rfl (hother thread)
  | put =>
    refine ⟨rfl, rfl, rfl, fun hstopping => ?_, fun hexited => ?_⟩
    · simp [TExpiringCache.put, hstopping]
    · simp [State.notifyIf, hexited, HandlerPhase.notified]
  | remove =>
    refine ⟨rfl, rfl, rfl, fun hstopping => ?_, fun hexited => ?_⟩
    · simp [TExpiringCache.remove, hstopping]
    · simp [State.notifyIf, hexited, HandlerPhase.notified]
  | get | size | tick => exact ⟨rfl, rfl, rfl, id, id⟩
  | sweep hphase hrunning =>
    refine ⟨rfl, rfl, rfl, fun hstopping => ?_, fun hexited => by simp [hexited] at hphase⟩
    rw [hrunning] at hstopping
    cases hstopping
  | lock hphase | compute hphase | find _ hphase | sleep _ hphase | testAgain _ hphase
  | giveUp hphase | exit hphase | spuriousWake _ hphase | timeout _ hphase =>
    exact ⟨rfl, rfl, rfl, id, fun hexited => by simp [hexited] at hphase⟩

/-- The first join, at the end of the handler, makes the thread object not joinable. -/
structure State.JoinsRecorded (s : State Q Value Tid) : Prop where
  joinable_iff : s.joinable = true ↔ s.joins = 0
  exited : s.joinable = false → s.handler = .exited
  returned : ∀ thread, s.stoppers thread = .returned → s.joinable = false
  threw : ∀ thread, s.stoppers thread = .threw → 2 ≤ s.joins
  stopping : ∀ thread, s.stoppers thread ≠ .idle → s.cache.isStopping = true

omit [DecidableEq Key] [DecidableEq Tid] in
/-- The record of the joins survives a step outside `stop`. -/
theorem State.JoinsRecorded.frame {s next : State Q Value Tid} (h : s.JoinsRecorded)
    (hframe : s.StopFrame next) : next.JoinsRecorded := by
  constructor
  · rw [hframe.joinable, hframe.joins]
    exact h.joinable_iff
  · rw [hframe.joinable]
    exact fun hjoined => hframe.exited (h.exited hjoined)
  · rw [hframe.stoppers, hframe.joinable]
    exact h.returned
  · rw [hframe.stoppers, hframe.joins]
    exact h.threw
  · rw [hframe.stoppers]
    exact fun thread hbusy => hframe.stopping (h.stopping thread hbusy)

/-- A step of `stop` keeps the record of the joins. -/
theorem State.JoinsRecorded.stopStep {s next : State Q Value Tid} (h : s.JoinsRecorded)
    {thread : Tid} (hstep : s.stopStep thread = some next) : next.JoinsRecorded := by
  obtain ⟨hjoinable_iff, hexited, hreturned, hthrew, hstopping⟩ := h
  cases State.Move.stopStep hstep with
  | enter _ =>
    refine ⟨hjoinable_iff, hexited, fun other hother => ?_, fun other hother => ?_, fun _ _ => rfl⟩
    · exact hreturned other (threads.phase_of_update hother (by simp))
    · exact hthrew other (threads.phase_of_update hother (by simp))
  | notify _ hphase =>
    refine ⟨hjoinable_iff, fun hjoined => ?_, fun other hother => ?_, fun other hother => ?_,
      fun _ _ => hstopping thread (by simp [hphase])⟩
    · rw [hexited hjoined]
      rfl
    · exact hreturned other (threads.phase_of_update hother (by simp))
    · exact hthrew other (threads.phase_of_update hother (by simp))
  | pass _ hphase =>
    refine ⟨hjoinable_iff, hexited, fun other hother => ?_, fun other hother => ?_,
      fun _ _ => hstopping thread (by simp [hphase])⟩
    · exact hreturned other (threads.phase_of_update hother (by simp))
    · exact hthrew other (threads.phase_of_update hother (by simp))
  | skip _ hphase hjoined =>
    refine ⟨hjoinable_iff, hexited, fun _ _ => hjoined, fun other hother => ?_,
      fun _ _ => hstopping thread (by simp [hphase])⟩
    exact hthrew other (threads.phase_of_update hother (by simp))
  | join _ hphase hended =>
    refine ⟨by simp, fun _ => hended, fun _ _ => rfl, fun other hother => ?_,
      fun _ _ => hstopping thread (by simp [hphase])⟩
    exact Nat.le_succ_of_le (hthrew other (threads.phase_of_update hother (by simp)))
  | joinAgain _ hphase hended hjoined =>
    refine ⟨by simp, fun _ => hended, fun _ _ => rfl, fun _ _ => ?_,
      fun _ _ => hstopping thread (by simp [hphase])⟩
    have hsome : s.joins ≠ 0 := by simpa [hjoined] using hjoinable_iff
    show 2 ≤ s.joins + 1
    omega

/-- Each step keeps the record of the joins. -/
theorem State.JoinsRecorded.step {s next : State Q Value Tid} (h : s.JoinsRecorded)
    {action : Action Key Value Tid} (hstep : s.step action = some next) : next.JoinsRecorded := by
  cases action with
  | stopStep thread => exact h.stopStep hstep
  | put | get | remove | size | tick | handlerStep | spuriousWake | timeout =>
    exact h.frame (State.stopFrame_of_step (by simp) hstep)

/-- The joins are recorded in every reachable state. -/
theorem joinsRecorded_of_reachable {s : State Q Value Tid}
    (hreach : (cacheMachine Q Value Tid).Reachable s) : s.JoinsRecorded := by
  refine transition.Machine.Reachable.invariant ?_ ?_ hreach
  · rintro s ⟨clock, rfl⟩
    exact ⟨by simp, nofun, nofun, nofun, fun thread hbusy => absurd rfl hbusy⟩
  · exact fun s action next h hstep => h.step hstep

/-- A caller tests `joinable` only while no other is between its own test and the end
of its join. -/
def State.TestsAlone (s : State Q Value Tid) : Action Key Value Tid → Prop
  | .stopStep thread => s.stoppers thread = .testingJoinable →
      ∀ other, s.stoppers other ≠ .joining
  | _ => True

/-- `join` is executed by one caller, on a thread that nobody has joined, and every
`stop` returns behind it and behind the handler. -/
structure State.JoinsOnce (s : State Q Value Tid) : Prop where
  once : s.joins ≤ 1
  alone : ∀ thread other, s.stoppers thread = .joining → s.stoppers other = .joining →
    thread = other
  unjoined : ∀ thread, s.stoppers thread = .joining → s.joinable = true ∧ s.joins = 0
  succeeds : ∀ thread, s.stoppers thread ≠ .threw
  returned : ∀ thread, s.stoppers thread = .returned → s.handler = .exited ∧ s.joins = 1

/-- Two executions of `join`, done or to come. -/
def State.JoinsTwice (s : State Q Value Tid) : Prop :=
  2 ≤ s.joins ∨ (s.joins ≠ 0 ∧ ∃ thread, s.stoppers thread = .joining) ∨
    ∃ thread other, thread ≠ other ∧ s.stoppers thread = .joining ∧ s.stoppers other = .joining

omit [DecidableEq Key] [DecidableEq Tid] in
/-- The handler is joined once exactly as long as no second join is done or to come. -/
theorem State.JoinsRecorded.once_iff_not_twice {s : State Q Value Tid} (h : s.JoinsRecorded) :
    s.JoinsOnce ↔ ¬ s.JoinsTwice := by
  constructor
  · rintro honce (hdone | ⟨hsome, thread, hphase⟩ | ⟨thread, other, hne, hphase, hother⟩)
    · have hbound := honce.once
      omega
    · exact hsome (honce.unjoined thread hphase).2
    · exact hne (honce.alone thread other hphase hother)
  · intro htwice
    simp only [State.JoinsTwice, not_or, not_le, not_and, not_exists] at htwice
    obtain ⟨hbound, hagain, htogether⟩ := htwice
    refine ⟨Nat.le_of_lt_succ hbound, ?_, ?_, ?_, ?_⟩
    · intro thread other hphase hother
      by_contra hne
      exact htogether thread other hne hphase hother
    · intro thread hphase
      have hnone : s.joins = 0 := by
        by_contra hsome
        exact hagain hsome thread hphase
      exact ⟨h.joinable_iff.mpr hnone, hnone⟩
    · intro thread hphase
      have htwo := h.threw thread hphase
      omega
    · intro thread hphase
      have hjoined := h.returned thread hphase
      have hsome : s.joins ≠ 0 := by simpa [hjoined] using h.joinable_iff
      refine ⟨h.exited hjoined, ?_⟩
      omega

omit [DecidableEq Key] [DecidableEq Tid] in
/-- Steps that neither bring a caller to its join nor through it. -/
theorem State.joinsTwice_congr {s next : State Q Value Tid} (hjoins : next.joins = s.joins)
    (hsame : ∀ thread, next.stoppers thread = .joining ↔ s.stoppers thread = .joining) :
    next.JoinsTwice ↔ s.JoinsTwice := by
  simp only [State.JoinsTwice, hjoins, hsame]

omit [DecidableEq Key] [DecidableEq Tid] in
/-- With one caller at its join, a second one makes two. -/
theorem State.joinsTwice_iff_of_joining {s : State Q Value Tid} {thread : Tid}
    (hphase : s.stoppers thread = .joining) :
    s.JoinsTwice ↔ s.joins ≠ 0 ∨ ∃ other, other ≠ thread ∧ s.stoppers other = .joining := by
  constructor
  · rintro (hdone | ⟨hsome, _⟩ | ⟨first, second, hne, hfirst, hsecond⟩)
    · exact .inl (by omega)
    · exact .inl hsome
    · by_cases hthread : first = thread
      · exact .inr ⟨second, fun heq => hne (hthread.trans heq.symm), hsecond⟩
      · exact .inr ⟨first, hthread, hfirst⟩
  · rintro (hsome | ⟨other, hne, hother⟩)
    · exact .inr (.inl ⟨hsome, thread, hphase⟩)
    · exact .inr (.inr ⟨other, thread, hne, hother, hphase⟩)

omit [DecidableEq Key] in
/-- A caller that moves elsewhere. -/
theorem State.joinsTwice_update {s next : State Q Value Tid} {thread : Tid} {phase : StopPhase}
    (hbefore : s.stoppers thread ≠ .joining) (hafter : phase ≠ .joining)
    (hstoppers : next.stoppers = Function.update s.stoppers thread phase)
    (hjoins : next.joins = s.joins) : next.JoinsTwice ↔ s.JoinsTwice := by
  refine State.joinsTwice_congr hjoins fun other => ?_
  rw [hstoppers]
  exact ⟨fun hphase => threads.phase_of_update hphase hafter,
    fun hphase => threads.update_of_phase_ne hphase hbefore⟩

omit [DecidableEq Key] in
/-- A join that is executed was one before it, at its caller. -/
theorem State.joinsTwice_join {s next : State Q Value Tid} {thread : Tid} {phase : StopPhase}
    (hphase : s.stoppers thread = .joining) (hafter : phase ≠ .joining)
    (hstoppers : next.stoppers = Function.update s.stoppers thread phase)
    (hjoins : next.joins = s.joins + 1) : next.JoinsTwice ↔ s.JoinsTwice := by
  have hothers (other : Tid) : next.stoppers other = .joining ↔
      other ≠ thread ∧ s.stoppers other = .joining := by
    rw [hstoppers]
    by_cases hother : other = thread
    · rw [hother, Function.update_self]
      simp [hafter]
    · rw [Function.update_of_ne hother]
      simp [hother]
  rw [State.joinsTwice_iff_of_joining hphase]
  simp only [State.JoinsTwice, hjoins, hothers]
  constructor
  · rintro (hdone | ⟨_, hother⟩ | ⟨other, _, _, hother, _⟩)
    · exact .inl (by omega)
    · exact .inr hother
    · exact .inr ⟨other, hother⟩
  · rintro (hsome | hother)
    · exact .inl (by omega)
    · exact .inr (.inl ⟨Nat.succ_ne_zero _, hother⟩)

/-- A step brings a second join exactly when it tests `joinable` beside a thread at its join. -/
theorem State.joinsTwice_stopStep {s next : State Q Value Tid}
    (h : s.JoinsRecorded) {thread : Tid} (hstep : s.stopStep thread = some next) :
    next.JoinsTwice ↔ s.JoinsTwice ∨ ¬ s.TestsAlone (.stopStep thread) := by
  cases State.Move.stopStep hstep with
  | enter _ hphase =>
    have hbefore : s.stoppers thread ≠ .joining := by
      rcases hphase with hphase | hphase | hphase <;> simp [hphase]
    have halone : s.TestsAlone (.stopStep thread) := by
      rcases hphase with hphase | hphase | hphase <;> simp [State.TestsAlone, hphase]
    refine Iff.trans (State.joinsTwice_update hbefore (by simp) rfl rfl) ?_
    simp [halone]
  | notify _ hphase =>
    refine Iff.trans (State.joinsTwice_update (by simp [hphase]) (by simp) rfl rfl) ?_
    simp [State.TestsAlone, hphase]
  | pass _ hphase hjoinable =>
    have hnone := h.joinable_iff.mp hjoinable
    have hself : Function.update s.stoppers thread StopPhase.joining thread = .joining :=
      Function.update_self ..
    have hothers : (∃ other, other ≠ thread ∧
        Function.update s.stoppers thread .joining other = .joining) ↔
          ∃ other, s.stoppers other = .joining := by
      constructor
      · rintro ⟨other, hne, hother⟩
        rw [Function.update_of_ne hne] at hother
        exact ⟨other, hother⟩
      · rintro ⟨other, hother⟩
        have hne : other ≠ thread := by
          rintro rfl
          rw [hphase] at hother
          cases hother
        exact ⟨other, hne, (Function.update_of_ne hne ..).trans hother⟩
    refine Iff.trans (State.joinsTwice_iff_of_joining hself) ?_
    simp only [hothers, State.TestsAlone, hphase, forall_const, not_forall, not_not]
    refine ⟨fun hagain => .inr (hagain.resolve_left fun hsome => hsome hnone), ?_⟩
    rintro ((hdone | ⟨hsome, _⟩ | ⟨first, _, _, hfirst, _⟩) | hother)
    · omega
    · exact absurd hnone hsome
    · exact .inr ⟨first, hfirst⟩
    · exact .inr hother
  | skip _ hphase hjoinable =>
    refine Iff.trans (State.joinsTwice_update (by simp [hphase]) (by simp) rfl rfl) ?_
    have hsome : s.joins ≠ 0 := by simpa [hjoinable] using h.joinable_iff
    refine (or_iff_left_of_imp fun hbreaks => ?_).symm
    simp only [State.TestsAlone, hphase, forall_const, not_forall, not_not] at hbreaks
    exact .inr (.inl ⟨hsome, hbreaks⟩)
  | join _ hphase =>
    refine Iff.trans (State.joinsTwice_join hphase (by simp) rfl rfl) ?_
    simp [State.TestsAlone, hphase]
  | joinAgain _ hphase =>
    refine Iff.trans (State.joinsTwice_join hphase (by simp) rfl rfl) ?_
    simp [State.TestsAlone, hphase]

/-- A second join is on its way exactly from a test that is not made alone. -/
theorem State.joinsTwice_step {s next : State Q Value Tid} (h : s.JoinsRecorded)
    {action : Action Key Value Tid} (hstep : s.step action = some next) :
    next.JoinsTwice ↔ s.JoinsTwice ∨ ¬ s.TestsAlone action := by
  cases action with
  | stopStep thread => exact State.joinsTwice_stopStep h hstep
  | put | get | remove | size | tick | handlerStep | spuriousWake | timeout =>
    have hframe := State.stopFrame_of_step (by simp) hstep
    rw [State.joinsTwice_congr hframe.joins fun thread => by rw [hframe.stoppers]]
    simp [State.TestsAlone]

/-- Concurrent `stop` calls join once in the runs in which no caller tests `joinable` while
another is at its join. -/
theorem State.joinsOnce_iff {start last : State Q Value Tid}
    {schedule : List (Action Key Value Tid)} (hstart : (cacheMachine Q Value Tid).init start)
    (hrun : (cacheMachine Q Value Tid).run start schedule = some last) :
    last.JoinsOnce ↔ (cacheMachine Q Value Tid).RunsBy State.TestsAlone start schedule := by
  have hreach : (cacheMachine Q Value Tid).Reachable start := .init hstart
  have hrecorded : last.JoinsTwice ↔ start.JoinsTwice ∨
      ¬ (cacheMachine Q Value Tid).RunsBy State.TestsAlone start schedule :=
    transition.Machine.Reachable.recorded_iff (fun s action next hs hstep =>
      State.joinsTwice_step (joinsRecorded_of_reachable hs) hstep) hreach hrun
  have hfresh : ¬ start.JoinsTwice := by
    obtain ⟨clock, rfl⟩ := hstart
    simp [State.JoinsTwice]
  rw [(joinsRecorded_of_reachable (hreach.run hrun)).once_iff_not_twice, hrecorded]
  simp [hfresh]

/-- The handler of a stopping cache comes to its end whatever it is at. -/
theorem State.exists_run_exited {s : State Q Value Tid} (hstopping : s.cache.isStopping = true) :
    ∃ schedule, (cacheMachine Q Value Tid).run s schedule = some { s with handler := .exited } := by
  have hreturned : (cacheMachine Q Value Tid).run { s with handler := .returned } [.handlerStep] =
      some { s with handler := .exited } := by
    simp [transition.Machine.run, cacheMachine, State.step, State.handlerStep, hstopping]
  have htesting (deadline : Int) : (cacheMachine Q Value Tid).run
      { s with handler := .testing deadline } [.handlerStep, .handlerStep] =
        some { s with handler := .exited } := by
    have hwakes : s.cache.wakePredicate s.clock = true := by
      simp [TExpiringCache.wakePredicate, hstopping]
    simpa [transition.Machine.run, cacheMachine, State.step, State.handlerStep, hwakes] using
      hreturned
  have hsame {phase : HandlerPhase} (hphase : s.handler = phase) :
      s = { s with handler := phase } := by rw [← hphase]
  cases hphase : s.handler with
  | exited =>
    refine ⟨[], ?_⟩
    rw [transition.Machine.run, ← hsame hphase]
  | returned =>
    rw [hsame hphase]
    exact ⟨_, hreturned⟩
  | testing deadline =>
    rw [hsame hphase]
    exact ⟨_, htesting deadline⟩
  | timedOut =>
    refine ⟨.handlerStep :: [.handlerStep], ?_⟩
    rw [hsame hphase]
    exact hreturned
  | woken deadline =>
    refine ⟨.handlerStep :: [.handlerStep, .handlerStep], ?_⟩
    rw [hsame hphase]
    exact htesting deadline
  | blocked deadline =>
    refine ⟨.spuriousWake :: .handlerStep :: [.handlerStep, .handlerStep], ?_⟩
    rw [hsame hphase]
    exact htesting deadline
  | computing =>
    refine ⟨.handlerStep :: [.handlerStep, .handlerStep], ?_⟩
    rw [hsame hphase]
    exact htesting s.cache.timeToWaitUntil
  | acquiring =>
    refine ⟨.handlerStep :: .handlerStep :: [.handlerStep, .handlerStep], ?_⟩
    rw [hsame hphase]
    exact htesting s.cache.timeToWaitUntil

/-- A second join that is on its way comes about, on a thread that has been joined. -/
theorem State.JoinsTwice.exists_threw {s : State Q Value Tid}
    (hreach : (cacheMachine Q Value Tid).Reachable s) (h : s.JoinsTwice) {thread : Tid}
    (hphase : s.stoppers thread = .joining) :
    ∃ schedule last, (cacheMachine Q Value Tid).run s schedule = some last ∧ 2 ≤ last.joins ∧
      ∃ other, last.stoppers other = .threw := by
  have hrecorded := joinsRecorded_of_reachable hreach
  obtain ⟨schedule, hrun⟩ :=
    State.exists_run_exited (hrecorded.stopping thread (by simp [hphase]))
  cases hjoinable : s.joinable with
  | false =>
    have hsome : s.joins ≠ 0 := by simpa [hjoinable] using hrecorded.joinable_iff
    refine ⟨schedule ++ [.stopStep thread], { s with
      handler := .exited
      joinable := false
      joins := s.joins + 1
      stoppers := Function.update s.stoppers thread .threw }, ?_, ?_, thread, ?_⟩
    · rw [transition.Machine.run_append, hrun]
      simp [transition.Machine.run, cacheMachine, State.step, State.stopStep, hphase, hjoinable]
    · show 2 ≤ s.joins + 1
      omega
    · exact Function.update_self ..
  | true =>
    have hnone := hrecorded.joinable_iff.mp hjoinable
    obtain ⟨other, hne, hother⟩ :=
      ((State.joinsTwice_iff_of_joining hphase).mp h).resolve_left fun hsome => hsome hnone
    refine ⟨schedule ++ [.stopStep thread, .stopStep other], { s with
      handler := .exited
      joinable := false
      joins := s.joins + 1 + 1
      stoppers := Function.update (Function.update s.stoppers thread .returned) other .threw },
      ?_, ?_, other, ?_⟩
    · rw [transition.Machine.run_append, hrun]
      simp [transition.Machine.run, cacheMachine, State.step, State.stopStep, hphase, hjoinable,
        Function.update_of_ne hne, hother]
    · show 2 ≤ s.joins + 1 + 1
      omega
    · exact Function.update_self ..

/-- The rule is exact: after a test that is not made alone, a caller can come to join
a thread that another has joined. -/
theorem exists_threw_of_not_testsAlone {s next : State Q Value Tid} {action : Action Key Value Tid}
    (hreach : (cacheMachine Q Value Tid).Reachable s) (hbreaks : ¬ s.TestsAlone action)
    (hstep : s.step action = some next) :
    ∃ schedule last, (cacheMachine Q Value Tid).run next schedule = some last ∧ 2 ≤ last.joins ∧
      ∃ other, last.stoppers other = .threw := by
  have htwice := (State.joinsTwice_step (joinsRecorded_of_reachable hreach) hstep).mpr (.inr hbreaks)
  cases action with
  | stopStep thread =>
    simp only [State.TestsAlone, Classical.not_imp, not_forall, not_not] at hbreaks
    obtain ⟨hphase, other, hother⟩ := hbreaks
    have hne : other ≠ thread := by
      rintro rfl
      rw [hphase] at hother
      cases hother
    have hstill : next.stoppers other = .joining := by
      simp only [State.step, State.stopStep, hphase, Option.some.injEq] at hstep
      subst hstep
      exact (Function.update_of_ne hne ..).trans hother
    exact htwice.exists_threw (hreach.step (a := .stopStep thread) hstep) hstill
  | _ => exact absurd trivial hbreaks

instance [Fintype Tid] (s : State Q Value Tid) : DecidablePred s.TestsAlone
  | .stopStep thread => inferInstanceAs (Decidable (s.stoppers thread = .testingJoinable →
      ∀ other, s.stoppers other ≠ .joining))
  | .put _ _ _ | .get _ | .remove _ | .size | .tick _ | .handlerStep | .spuriousWake | .timeout =>
    inferInstanceAs (Decidable True)

/-- The second call is entered while the first is at its join, and tests `joinable` after it. -/
def overlappingStops : List (Action Nat Unit Bool) :=
  [.stopStep false, .stopStep false, .stopStep false, .stopStep true, .stopStep true,
    .handlerStep, .handlerStep, .handlerStep, .handlerStep, .stopStep false, .stopStep true]

/-- Two calls of `stop` overlap, and still the handler is joined once. -/
theorem joinsOnce_overlappingStops :
    ∃ last : State (PriorityQueue.sorted (@HeapEntry.NotAfter Nat)) Unit Bool,
      (cacheMachine _ Unit Bool).run { clock := 0 } overlappingStops = some last ∧
        last.stoppers false = .returned ∧ last.stoppers true = .returned ∧ last.JoinsOnce := by
  have hany : ((cacheMachine (PriorityQueue.sorted (@HeapEntry.NotAfter Nat)) Unit Bool).runBy
      State.TestsAlone { clock := 0 } overlappingStops).any (fun last =>
        last.stoppers false = .returned ∧ last.stoppers true = .returned) = true := by decide
  obtain ⟨last, hlast, hcheck⟩ := (Option.any_eq_true _ _).mp hany
  obtain ⟨hfirst, hsecond⟩ := of_decide_eq_true hcheck
  obtain ⟨hruns, hrun⟩ := transition.Machine.runsBy_of_runBy hlast
  exact ⟨last, hrun, hfirst, hsecond, (State.joinsOnce_iff ⟨0, rfl⟩ hrun).mpr hruns⟩

/-- Two callers see the thread joinable and both join it. -/
theorem exists_second_join :
    ∃ s : State (PriorityQueue.sorted (@HeapEntry.NotAfter Nat)) Unit Bool,
      (cacheMachine _ Unit Bool).Reachable s ∧ s.joins = 2 ∧ s.stoppers true = .threw ∧
        ¬ s.JoinsOnce := by
  obtain ⟨s, hreach, hcheck⟩ := transition.Machine.exists_reachable_of_run
    (M := cacheMachine (PriorityQueue.sorted (@HeapEntry.NotAfter Nat)) Unit Bool)
    (s := { clock := 0 }) ⟨0, rfl⟩
    [.stopStep false, .stopStep true, .stopStep false, .stopStep true, .stopStep false,
      .stopStep true, .handlerStep, .handlerStep, .handlerStep, .handlerStep, .stopStep false,
      .stopStep true]
    (fun s => s.joins = 2 ∧ s.stoppers true = .threw) (by decide)
  obtain ⟨hjoins, hthrew⟩ := of_decide_eq_true hcheck
  exact ⟨s, hreach, hjoins, hthrew, fun honce => honce.succeeds true hthrew⟩

end spdlogger.expiring_cache
