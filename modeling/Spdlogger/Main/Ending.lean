import Spdlogger.Main.Shutdown
import Spdlogger.Main.Termination
import Spdlogger.TestContext.Roundtrip

namespace spdlogger.main

open spdlogger.test_context (TestContext)

section machine

variable {maxThreads : Option Int} {tests : Nat} {s : State (workerCount maxThreads)}

/-- Behind the heartbeats `stop` is set, in every reachable state. -/
theorem State.stopped_of_reachable (hreach : (mainMachine maxThreads tests).Reachable s) :
    s.phase.hasStopped → s.stop := by
  refine transition.Machine.Reachable.invariant
    (I := fun s => s.phase.hasStopped → s.stop) ?_ ?_ hreach
  · rintro s rfl hstopped
    cases hstopped
  · intro s action next h hstep hstopped
    cases Move.of_step hstep with
    | inside _ _ _ _ _ hphase hstop =>
      rw [hstop]
      exact h (hphase ▸ hstopped)
    | threw _ _ _ _ _ _ hphase =>
      rw [hphase] at hstopped
      cases hstopped
    | onward _ _ _ honward =>
      obtain hstored | ⟨hbefore, hsame⟩ := honward hstopped
      · exact hstored
      · exact hsame.trans (h hbefore)

/-- A test that ends was under way. -/
theorem Pool.Linked.running_of_ends {phase : Phase} {pool next : Pool (workerCount maxThreads)}
    (h : pool.Linked tests phase) {action : PoolAction (workerCount maxThreads)} {index : Nat}
    (hends : index ∈ pool.ended action) (hstep : pool.step action = some next) :
    index ∈ pool.running := by
  have hrunning := (h.passes hstep).2
  have hnone := (pool.begun_or_ended action).resolve_right fun hnone => by simp [hnone] at hends
  rw [hnone, add_zero] at hrunning
  exact hrunning ▸ Multiset.mem_add.mpr (.inr hends)

/-- A test under way stays so until it ends. -/
theorem Pool.Linked.running_of_goes {phase : Phase} {pool next : Pool (workerCount maxThreads)}
    (h : pool.Linked tests phase) {action : PoolAction (workerCount maxThreads)} {index : Nat}
    (hgoes : index ∉ pool.ended action) (hstep : pool.step action = some next)
    (hrunning : index ∈ pool.running) : index ∈ next.running := by
  have hnext : index ∈ next.running + pool.ended action := by
    rw [(h.passes hstep).2]
    exact Multiset.mem_add.mpr (.inl hrunning)
  exact (Multiset.mem_add.mp hnext).resolve_right hgoes

/-- A pending notification can be sent. -/
theorem BoundedLink.exists_notify {workers : Nat} {phase : Phase}
    {pool : thread_pool.State workers Unit Nat Empty} (h : BoundedLink tests phase pool)
    (hclient : pool.clients (.caller ()) = .notifying) :
    ∃ target, pool.step (.notify (.caller ()) target) ≠ none := by
  obtain ⟨target, htarget⟩ := (thread_pool.workCondition Nat Empty).exists_picks pool.workers
  refine ⟨target, ?_⟩
  simp [thread_pool.State.step, h.genuine.running, thread_pool.State.notify, hclient, htarget]

/-- The loop that submits the tests can always go on. -/
theorem State.Linked.starting_goes {index : Nat} (h : s.Linked tests)
    (hphase : s.phase = .starting index) :
    ∃ action : Action (workerCount maxThreads), action.isOwn ∧
      (∀ inner, action = .pool inner → inner.endsTask = false) ∧
      s.step maxThreads tests action ≠ none := by
  obtain ⟨pool, hpool, hlink⟩ := h.exists_pool (by rw [hphase]; rfl)
  have hindex : index ≤ tests := by
    have hsubmitted := h.submitted
    rwa [hphase] at hsubmitted
  rw [hphase] at hlink
  obtain hless | rfl := Nat.lt_or_eq_of_le hindex
  · by_cases hsubmit : pool.submit index = none
    · cases pool with
      | unlimited pool =>
        have hidle : pool.caller = .idle := UnlimitedLink.fits hlink
        simp [Pool.submit, thread_pool.unlimited.State.step, UnlimitedLink.running hlink,
          hidle] at hsubmit
      | bounded pool =>
        obtain ⟨_, hidle | hnotifying⟩ := BoundedLink.fits hlink
        · simp [Pool.submit, thread_pool.State.submit, thread_pool.State.mayCall, hidle] at hsubmit
        · obtain ⟨target, hnotify⟩ := BoundedLink.exists_notify hlink hnotifying
          refine ⟨.pool (.bounded (.notify (.caller ()) target)), rfl, ?_, ?_⟩
          · rintro _ ⟨⟩
            rfl
          · simpa [State.step, hpool, Pool.step, PoolAction.isInternal] using hnotify
    · refine ⟨.submit, rfl, by simp, ?_⟩
      simpa [State.step, hphase, if_pos hless, State.call, hpool] using hsubmit
  · refine ⟨.started, rfl, by simp, ?_⟩
    simp [State.step, hphase]

end machine

section program

variable {ctx : TestContext}

/-- Whether `run` goes on until it sees `stop`. `RideStateManagerTest` leaves the rest to its
observer thread, and `SinkCallbackTest` goes on only under stress. -/
def TestBase.runsOn (ctx : TestContext) (self : TestBase) : Bool :=
  self.name ≠ "ride_state_manager" && (ctx.stress || self.name ≠ "sink_callback")

/-- The test that is over with a step. -/
def State.ended {workers : Nat} (s : State workers) : Action workers → Multiset Nat
  | .pool action => s.testThreadPool.elim 0 fun pool => pool.ended action
  | _ => 0

/-- Before `stop` a test ends only if it does not run on. -/
def Program.mayTake {workers : Nat} (ctx : TestContext) (self : Program workers) :
    ProgramAction workers → Bool
  | .run action _ => self.state.stop ||
      decide (∀ index ∈ self.state.ended action, self.tests[index]?.any (TestBase.runsOn ctx) = false)
  | _ => true

/-- `main` with tests that throw nothing before `stop`. -/
def patientMachine (ctx : TestContext) : transition.Machine (Program (workerCount ctx.maxThreads))
    (ProgramAction (workerCount ctx.maxThreads)) :=
  (programMachine ctx).restrict (Program.mayTake ctx)

/-- `~ThreadPool` waits, for an exception, while a test is under way that is not told to stop. -/
structure Program.Hangs (ctx : TestContext) (program : Program (workerCount ctx.maxThreads)) :
    Prop where
  startup : program.startup = .running
  unwinding : program.state.phase = .destroying true
  stop : program.state.stop = false
  test : ∃ test ∈ program.tests, test.runsOn ctx = true ∧
    test.history = [.configured (test.config ctx), .started]

/-- A test is under way that runs on. -/
def Program.RunsOn (ctx : TestContext) (program : Program (workerCount ctx.maxThreads)) : Prop :=
  ∃ index ∈ program.state.running, program.tests[index]?.any (TestBase.runsOn ctx) = true

variable {self next : Program (workerCount ctx.maxThreads)}

/-- The tests under way are those that have been started and have not ended. -/
theorem State.Agrees.mem_running_iff {s : State (workerCount ctx.maxThreads)}
    {tests : List TestBase} {submitted : Nat} (h : s.Agrees ctx tests submitted) {index : Nat}
    {test : TestBase} (htest : tests[index]? = some test) :
    index ∈ s.running ↔ test.history = [.configured (test.config ctx), .started] := by
  obtain ⟨stage, hfits⟩ := h.stages index test htest
  rw [← Multiset.count_pos, hfits.history]
  cases hdestroyed : s.phase.hasDestroyed with
  | false =>
    rw [hfits.running]
    cases stage <;> simp [Stage.running, Stage.history]
  | true =>
    rw [(h.idle hdestroyed).2]
    cases stage <;> simp [Stage.history]

/-- `main` hangs exactly on its way out with an exception before `stop`, with a test that runs
on. -/
theorem Program.Sound.hangs_iff (h : self.Sound ctx) (hstartup : self.startup = .running) :
    self.Hangs ctx ↔
      self.state.phase = .destroying true ∧ self.state.stop = false ∧ self.RunsOn ctx := by
  obtain ⟨_, _, submitted, hagrees⟩ := h.running hstartup
  constructor
  · intro hhangs
    obtain ⟨test, htest, hrunsOn, hhistory⟩ := hhangs.test
    obtain ⟨index, hindex⟩ := List.mem_iff_getElem?.mp htest
    refine ⟨hhangs.unwinding, hhangs.stop, index, (hagrees.mem_running_iff hindex).mpr hhistory, ?_⟩
    rw [hindex]
    exact hrunsOn
  · rintro ⟨hphase, hstop, index, hrunning, hany⟩
    obtain ⟨test, htest, hrunsOn⟩ := (Option.any_eq_true _ _).mp hany
    exact ⟨hstartup, hphase, hstop, test, List.mem_of_getElem? htest, hrunsOn,
      (hagrees.mem_running_iff htest).mp hrunning⟩

/-- It goes on like that: the pool is not destroyed before the test ends. -/
theorem Program.Hangs.step (h : self.Hangs ctx) (hreach : (programMachine ctx).Reachable self)
    {action : ProgramAction (workerCount ctx.maxThreads)}
    (hstep : (patientMachine ctx).step self action = some next) : next.Hangs ctx := by
  obtain ⟨hmay, hstep⟩ := transition.Machine.restrict_step_iff.mp hstep
  have hsound := Program.sound_of_reachable hreach
  have hnext := Program.sound_of_reachable (hreach.step hstep)
  obtain ⟨htests, hmain, _⟩ := hsound.running h.startup
  obtain ⟨hphase, hstop, index, hrunning, hrunsOn⟩ := (hsound.hangs_iff h.startup).mp h
  have hlinked := State.linked_of_reachable htests hmain
  cases action with
  | makeLogger | create | configure | throws => simp [programMachine, Program.step, h.startup] at hstep
  | run action threw =>
    simp only [programMachine, Program.step, h.startup, Option.map_eq_some_iff] at hstep
    obtain ⟨state, hstate, rfl⟩ := hstep
    refine (hnext.hangs_iff rfl).mpr ?_
    cases State.turn_of_step hstate with
    | pool action pool last hpool hlast =>
      simp only [State.running, hpool, Option.elim_some] at hrunning
      have hgoes : index ∉ pool.ended action := by
        intro hends
        simp only [Program.mayTake, State.ended, hstop, hpool, Option.elim_some, Bool.false_or,
          decide_eq_true_eq] at hmay
        rw [hmay index hends] at hrunsOn
        cases hrunsOn
      refine ⟨hphase, hstop, index, (hlinked.pool pool hpool).running_of_goes hgoes hlast hrunning, ?_⟩
      have hsame (test : TestBase) : (self.state.track (.pool action) threw index test).runsOn ctx =
          test.runsOn ctx := by
        rw [TestBase.runsOn, name_track]
        rfl
      rw [List.getElem?_mapIdx, Option.any_map]
      simpa only [Function.comp_def, hsame] using hrunsOn
    | destroyed unwinding pool hbefore hpool hdestroyed =>
      have hlink := hlinked.pool pool hpool
      rw [hbefore] at hlink
      simp only [State.running, hpool, Option.elim_some, (hlink.idle_of_destroyed hdestroyed).2]
        at hrunning
      exact absurd hrunning (Multiset.notMem_zero index)
    | construct _ hbefore | constructThrows _ hbefore | submit _ _ _ hbefore
    | submitThrows _ _ _ _ hbefore | started hbefore | heartbeat hbefore | stop hbefore
    | wait _ _ hbefore | waited _ hbefore | clear _ _ hbefore =>
      rw [hphase] at hbefore
      cases hbefore

/-- At rest, unless a test runs on that is not told to stop, nothing at all can go on. -/
theorem Program.quiescent_of_patient (hreach : (programMachine ctx).Reachable self)
    (hrest : (patientMachine ctx).Quiescent ProgramAction.isOwn self)
    (hfree : self.startup = .running → self.state.stop = true ∨ ¬ self.RunsOn ctx) :
    (programMachine ctx).Quiescent ProgramAction.isOwn self := by
  intro action hown
  refine Option.eq_none_iff_forall_ne_some.mpr fun next hstep => ?_
  cases hmay : self.mayTake ctx action with
  | true =>
    have hsome : (patientMachine ctx).step self action = some next :=
      transition.Machine.restrict_step_iff.mpr ⟨hmay, hstep⟩
    rw [hrest action hown] at hsome
    cases hsome
  | false =>
    cases action with
    | makeLogger | create | configure | throws => cases hmay
    | run action threw =>
      by_cases hstartup : self.startup = .running
      · obtain ⟨htests, hmain, _⟩ := (Program.sound_of_reachable hreach).running hstartup
        simp only [programMachine, Program.step, hstartup, Option.map_eq_some_iff] at hstep
        obtain ⟨state, hstate, rfl⟩ := hstep
        cases State.turn_of_step hstate with
        | pool action pool last hpool hlast =>
          simp only [Program.mayTake, State.ended, hpool, Option.elim_some, Bool.or_eq_false_iff,
            decide_eq_false_iff_not] at hmay
          obtain ⟨hstop, hends⟩ := hmay
          refine (hfree hstartup).resolve_left (by simp [hstop]) ?_
          push Not at hends
          obtain ⟨index, hends, hrunsOn⟩ := hends
          have hlink := (State.linked_of_reachable htests hmain).pool pool hpool
          refine ⟨index, ?_, by simpa using hrunsOn⟩
          simpa only [State.running, hpool, Option.elim_some] using hlink.running_of_ends hends hlast
        | _ => simp [Program.mayTake, State.ended] at hmay
      · simp [programMachine, Program.step, hstartup] at hstep

/-- Where no step is left, `main` has ended or hangs. -/
theorem Program.isOver_or_hangs (hlimit : ∀ limit, ctx.maxThreads = some limit → 0 < limit)
    (hreach : (programMachine ctx).Reachable self)
    (hrest : (patientMachine ctx).Quiescent ProgramAction.isOwn self) :
    self.isOver ∨ self.Hangs ctx := by
  by_cases hfree : self.startup = .running → self.state.stop = true ∨ ¬ self.RunsOn ctx
  · exact .inl (Program.isOver_of_quiescent hlimit hreach
      (Program.quiescent_of_patient hreach hrest hfree))
  · push Not at hfree
    obtain ⟨hstartup, hstop, hrunsOn⟩ := hfree
    have hsound := Program.sound_of_reachable hreach
    obtain ⟨htests, hmain, _⟩ := hsound.running hstartup
    have hlinked := State.linked_of_reachable htests hmain
    have hstored := State.stopped_of_reachable hmain
    have hinside : self.state.phase.isOutside = false := by
      by_contra houtside
      obtain ⟨index, hrunning, _⟩ := hrunsOn
      rw [State.running, hlinked.none_of_outside (by simpa using houtside)] at hrunning
      exact Multiset.notMem_zero index hrunning
    have hgoes (action : Action (workerCount ctx.maxThreads)) (hown : action.isOwn)
        (hends : ∀ inner, action = .pool inner → inner.endsTask = false) :
        self.state.step ctx.maxThreads self.tests.length action = none := by
      have hnone := hrest (.run action false) hown
      refine Option.eq_none_iff_forall_ne_some.mpr fun state hstate => ?_
      have hmay : self.mayTake ctx (.run action false) := by
        cases State.turn_of_step hstate with
        | pool inner pool last hpool hlast =>
          have hended := Pool.card_ended hlast
          rw [hends inner rfl] at hended
          simp [Program.mayTake, State.ended, hpool, Multiset.card_eq_zero.mp hended]
        | _ => simp [Program.mayTake, State.ended]
      have hsome : (patientMachine ctx).step self (.run action false) = some
          { self with state, tests := self.tests.mapIdx (self.state.track action false) } :=
        transition.Machine.restrict_step_iff.mpr ⟨hmay, by
          simp [programMachine, Program.step, hstartup, hstate]⟩
      rw [hnone] at hsome
      cases hsome
    cases hphase : self.state.phase with
    | starting index =>
      obtain ⟨action, hown, hends, henabled⟩ := hlinked.starting_goes hphase
      exact absurd (hgoes action hown hends) henabled
    | heartbeat =>
      have hnone := hgoes .stop rfl (by simp)
      simp [State.step, hphase] at hnone
    | destroying unwinding =>
      cases unwinding with
      | true => exact .inr ((hsound.hangs_iff hstartup).mpr ⟨hphase, by simpa using hstop, hrunsOn⟩)
      | false => exact absurd (hstored (by rw [hphase]; rfl)) hstop
    | stopped | waiting | clearing => exact absurd (hstored (by rw [hphase]; rfl)) hstop
    | constructing | returned | terminated => simp [hphase, Phase.isOutside] at hinside

/-- Exceptions apart, no step leads out of the block before its end. -/
theorem Program.not_unwinding_of_step (hnormal : self.state.phase ≠ .destroying true)
    {action : ProgramAction (workerCount ctx.maxThreads)} (hown : action.isOwn)
    (hstep : (programMachine ctx).step self action = some next) :
    next.state.phase ≠ .destroying true := by
  cases hstartup : self.startup with
  | running =>
    cases action with
    | run action threw =>
      simp only [programMachine, Program.step, hstartup, Option.map_eq_some_iff] at hstep
      obtain ⟨state, hstate, rfl⟩ := hstep
      cases State.turn_of_step hstate with
      | submitThrows => cases hown
      | constructThrows => cases hown
      | pool | heartbeat => exact hnormal
      | _ => simp
    | _ => simp [programMachine, Program.step, hstartup] at hstep
  | failed => cases action <;> simp [programMachine, Program.step, hstartup] at hstep
  | logging | creating index | configuring index =>
    have hsame : next.state = self.state := by
      cases action <;> simp only [programMachine, Program.step, hstartup] at hstep <;>
        (try split at hstep) <;> (try split at hstep) <;> cases hstep <;> rfl
    rw [hsame]
    exact hnormal

end program

/-- How `main` ends, whatever it is asked for on the command line, with tests that throw nothing
before they see `stop`. It comes to rest only when it has returned or has been terminated, or
hangs in `~ThreadPool` after a submission that threw, which it then does for good. Without such
an exception it can always end, and in every run its own steps are bounded by the heartbeats,
the spurious wake-ups and the exceptions on the way. -/
theorem Program.ends_of_parse {platform : test_context.Platform}
    {from_str : String → test_context.Level} {argv printed : List String} {ctx : TestContext}
    (hparse : TestContext.parse platform from_str argv = .ok (ctx, printed))
    {self : Program (workerCount ctx.maxThreads)} (hreach : (patientMachine ctx).Reachable self) :
    ((patientMachine ctx).Quiescent ProgramAction.isOwn self → self.isOver ∨ self.Hangs ctx) ∧
    (self.Hangs ctx → ∀ schedule last, (patientMachine ctx).run self schedule = some last →
      last.Hangs ctx) ∧
    (self.state.phase ≠ .destroying true → ∃ schedule last,
      (∀ action ∈ schedule, action.isOwn) ∧ (patientMachine ctx).run self schedule = some last ∧
        last.isOver) ∧
    ∀ schedule last, (patientMachine ctx).run self schedule = some last →
      schedule.countP ProgramAction.isOwn + last.stepsLeft ≤ self.stepsLeft +
        (workerCount ctx.maxThreads + 9) * schedule.countP fun action => !action.isOwn := by
  obtain ⟨messages, hcontext⟩ := TestContext.parse_eq_contextOf platform from_str argv
  rw [hparse, Except.ok.injEq, Prod.mk.injEq] at hcontext
  have hlimit : ∀ limit, ctx.maxThreads = some limit → 0 < limit := by
    intro limit hsome
    rw [hcontext.1] at hsome
    exact (test_context.contextOf_maxThreads hsome).1
  have hbound : (patientMachine ctx).UsesUp _ _ _ := (usesUp ctx).restrict (Program.mayTake ctx)
  refine ⟨Program.isOver_or_hangs hlimit hreach.of_restrict, ?_, ?_,
    fun _ _ => hbound.countP_le hreach⟩
  · intro hhangs schedule last hrun
    exact transition.Machine.Reachable.trapped
      (fun s a next hs hhangs hstep => hhangs.step hs.of_restrict hstep) hreach hhangs hrun
  · intro hnormal
    obtain ⟨schedule, last, hall, hrun, hrest⟩ := hbound.exists_quiescent hreach
    have hown : (patientMachine ctx).RunsBy (fun _ action => action.isOwn) self schedule :=
      .of_forall (fun action haction _ => hall action haction) self
    have hstill : last.state.phase ≠ .destroying true :=
      transition.Machine.Reachable.preserved
        (I := fun self : Program (workerCount ctx.maxThreads) => self.state.phase ≠ .destroying true)
        (fun s a next _ hnormal hown hstep => Program.not_unwinding_of_step hnormal hown
          (transition.Machine.restrict_step_iff.mp hstep).2) hreach hnormal hown hrun
    have hends := Program.isOver_or_hangs hlimit (hreach.run hrun).of_restrict hrest
    exact ⟨schedule, last, hall, hrun, hends.resolve_right fun hhangs => hstill hhangs.unwinding⟩

/-- Two tests, on a pool with one worker. -/
def twoTestArguments : List String :=
  ["main", "--maxthreads", "1", "--ignoretests",
    "string_uaf,diagnostics,sink_callback,level5,concurrent_metrics_test," ++
      "producer_consumer_queue,ride_state_manager"]

/-- Two tests that run until they are told to stop, on a pool with one worker. -/
def twoTests : TestContext :=
  { maxThreads := some 1
    ignoreTests := ((k_registry.erase "timebase").erase "level").toFinset }

/-- The first of them is started, and the submission of the second throws. -/
def twoTestSchedule : List (ProgramAction (workerCount twoTests.maxThreads)) :=
  .makeLogger :: List.replicate 10 .create ++ List.replicate 3 .configure ++
    [.construct, .submit, .pool (.bounded (.notify (.caller ()) none)),
      .pool (.bounded (.workerStep onlyWorker)), .pool (.bounded (.workerStep onlyWorker)),
      .submitThrows false].map fun action => .run action false

/-- The run with two tests comes to its end, and the one whose second submit throws hangs. -/
theorem ends_of_parse_two_tests :
    (∃ schedule last, (∀ action ∈ schedule, action.isOwn) ∧
      (patientMachine twoTests).run {} schedule = some last ∧ last.isOver) ∧
    ∃ self, (patientMachine twoTests).Reachable self ∧ self.Hangs twoTests ∧
      ∀ schedule last, (patientMachine twoTests).run self schedule = some last →
        last.Hangs twoTests := by
  obtain ⟨printed, hparse⟩ :=
    TestContext.parse_eq_contextOf test_context.lp64 (fun _ => .off) twoTestArguments
  have hcontext : test_context.contextOf test_context.lp64 (fun _ => .off)
      (test_context.split (twoTestArguments.drop 1)) = twoTests := by decide +kernel
  rw [hcontext] at hparse
  constructor
  · have hinit : (patientMachine twoTests).Reachable {} := .init rfl
    exact (Program.ends_of_parse hparse hinit).2.2.1 (by simp)
  · obtain ⟨self, hreach, hcheck⟩ := transition.Machine.exists_reachable_of_run
      (M := patientMachine twoTests) (s := {}) rfl twoTestSchedule
      (fun self => self.startup = .running ∧ self.state.phase = .destroying true ∧
        self.state.stop = false ∧
        ∃ test ∈ self.tests, test.runsOn twoTests = true ∧
          test.history = [.configured (test.config twoTests), .started])
      (by decide +kernel)
    simp only [decide_eq_true_eq] at hcheck
    obtain ⟨hstartup, hphase, hstop, htest⟩ := hcheck
    have hhangs : self.Hangs twoTests := ⟨hstartup, hphase, hstop, htest⟩
    exact ⟨self, hreach, hhangs, (Program.ends_of_parse hparse hreach).2.1 hhangs⟩

end spdlogger.main
