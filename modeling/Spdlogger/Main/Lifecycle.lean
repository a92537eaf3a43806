import Spdlogger.Main.Agreement

namespace spdlogger.main

open spdlogger.test_context (TestContext)

variable {ctx : TestContext}

/-- The events of a test, as far as they have come: it is configured with its logger before
it is started, started once, and destroyed only when it is not under way. -/
inductive Life (logger : Logger) : List TestEvent → Prop where
  | created : Life logger []
  | configured : Life logger [.configured logger]
  | started : Life logger [.configured logger, .started]
  | ended (threw : Bool) : Life logger [.configured logger, .started, .ended threw]
  | discarded : Life logger [.destroyed]
  | unstarted : Life logger [.configured logger, .destroyed]
  | complete (threw : Bool) : Life logger [.configured logger, .started, .ended threw, .destroyed]

/-- What a maintainer expects of `main` and its tests, at any time of a run. -/
structure Program.Lawful (ctx : TestContext) (self : Program (workerCount ctx.maxThreads)) : Prop where
  names : self.tests.map TestBase.name <+: selected ctx
  skipped : self.skipped <+: k_registry.filter fun name => !ctx.shouldRun name
  life : ∀ test ∈ self.tests, Life (test.config ctx) test.history
  configured : (∃ test ∈ self.tests, .started ∈ test.history) →
    self.tests.map TestBase.name = selected ctx ∧
      ∀ test ∈ self.tests, .configured (test.config ctx) ∈ test.history
  outlived : (∃ test ∈ self.tests, .destroyed ∈ test.history) →
    ∀ test ∈ self.tests, test.history ≠ [.configured (test.config ctx), .started]
  succeeded : self.exitCode = some 0 → self.tests.map TestBase.name = selected ctx ∧
    ∀ test ∈ self.tests, ∃ threw,
      test.history = [.configured (test.config ctx), .started, .ended threw, .destroyed]
  failed : self.exitCode = some 1 → ∀ test ∈ self.tests, .destroyed ∈ test.history

/-- A test at a stage has had the events of a test. -/
theorem Stage.Fits.life {s : State (workerCount ctx.maxThreads)} {tests : List TestBase}
    {submitted index : Nat} {test : TestBase} {stage : Stage}
    (h : s.Agrees ctx tests submitted) (hfits : stage.Fits ctx s submitted index test) :
    Life (test.config ctx) test.history := by
  have hhistory := hfits.history
  cases hdestroyed : s.phase.hasDestroyed with
  | false =>
    simp only [hdestroyed, Bool.false_eq_true, if_false, List.append_nil] at hhistory
    rw [hhistory]
    cases stage with
    | configured | submitted => exact .configured
    | started => exact .started
    | ended threw => exact .ended threw
  | true =>
    simp only [hdestroyed, if_true] at hhistory
    have hrunning := hfits.running
    rw [(h.idle hdestroyed).2] at hrunning
    rw [hhistory]
    cases stage with
    | configured | submitted => exact .unstarted
    | started => cases hrunning
    | ended threw => exact .complete threw

/-- Before the pool is constructed no test is started or destroyed. -/
theorem Program.Lawful.of_startup {self : Program (workerCount ctx.maxThreads)}
    (hnames : self.tests.map TestBase.name <+: selected ctx)
    (hskipped : self.skipped <+: k_registry.filter fun name => !ctx.shouldRun name)
    (hhistory : ∀ test ∈ self.tests,
      test.history = [] ∨ test.history = [.configured (test.config ctx)])
    (hexit : self.exitCode = none) : self.Lawful ctx := by
  have hnever {test : TestBase} (htest : test ∈ self.tests) (event : TestEvent)
      (hevent : ∀ logger, event ≠ .configured logger) : event ∉ test.history := by
    obtain hcreated | hconfigured := hhistory test htest
    · simp [hcreated]
    · simp [hconfigured, hevent]
  refine ⟨hnames, hskipped, fun test htest => ?_, ?_, ?_, ?_, ?_⟩
  · obtain hcreated | hconfigured := hhistory test htest
    · rw [hcreated]
      exact .created
    · rw [hconfigured]
      exact .configured
  · rintro ⟨test, htest, hstarted⟩
    exact absurd hstarted (hnever htest .started nofun)
  · rintro ⟨test, htest, hdestroyed⟩
    exact absurd hdestroyed (hnever htest .destroyed nofun)
  · rw [hexit]
    nofun
  · rw [hexit]
    nofun

/-- A startup that fails has started no test. -/
theorem Program.Lawful.of_failed {self : Program (workerCount ctx.maxThreads)}
    (h : self.Sound ctx) (hstartup : self.startup = .failed) : self.Lawful ctx := by
  simp only [Program.Sound, hstartup] at h
  obtain ⟨hnames, hskipped, hhistory⟩ := h
  refine ⟨hnames, hskipped, fun test htest => ?_, ?_, fun _ test htest => ?_, ?_, fun _ test htest => ?_⟩
  · obtain hcreated | hconfigured := hhistory test htest
    · rw [hcreated]
      exact .discarded
    · rw [hconfigured]
      exact .unstarted
  · rintro ⟨test, htest, hstarted⟩
    obtain hcreated | hconfigured := hhistory test htest
    · simp [hcreated] at hstarted
    · simp [hconfigured] at hstarted
  · obtain hcreated | hconfigured := hhistory test htest
    · simp [hcreated]
    · simp [hconfigured]
  · simp [Program.exitCode, hstartup]
  · obtain hcreated | hconfigured := hhistory test htest
    · simp [hcreated]
    · simp [hconfigured]

/-- Past the startup the tests are those selected, each with its events. -/
theorem Program.Lawful.of_running {self : Program (workerCount ctx.maxThreads)}
    (h : self.Sound ctx) (hstartup : self.startup = .running) : self.Lawful ctx := by
  simp only [Program.Sound, hstartup] at h
  obtain ⟨hnames, hskipped, _, submitted, hagrees⟩ := h
  have hstage {test : TestBase} (htest : test ∈ self.tests) : ∃ (index : Nat) (stage : Stage),
      index < self.tests.length ∧ stage.Fits ctx self.state submitted index test := by
    obtain ⟨index, hindex, rfl⟩ := List.mem_iff_getElem.mp htest
    obtain ⟨stage, hfits⟩ := hagrees.stages index _ (List.getElem?_eq_getElem hindex)
    exact ⟨index, stage, hindex, hfits⟩
  have hevent {stage : Stage} {logger : Logger} : .destroyed ∉ stage.history logger := by
    cases stage <;> simp [Stage.history]
  refine ⟨hnames ▸ List.prefix_rfl, hskipped ▸ List.prefix_rfl, fun test htest => ?_, ?_, ?_, ?_, ?_⟩
  · obtain ⟨index, stage, _, hfits⟩ := hstage htest
    exact hfits.life hagrees
  · refine fun _ => ⟨hnames, fun test htest => ?_⟩
    obtain ⟨index, stage, _, hfits⟩ := hstage htest
    rw [hfits.history]
    cases stage <;> simp [Stage.history]
  · rintro ⟨destroyed, hmem, hdestroyed⟩ test htest
    obtain ⟨_, _, _, hfits⟩ := hstage hmem
    rw [hfits.history, List.mem_append] at hdestroyed
    have hgone : self.state.phase.hasDestroyed = true := by
      obtain hearlier | hlast := hdestroyed
      · exact absurd hearlier hevent
      · by_contra hlive
        simp [hlive] at hlast
    obtain ⟨_, stage, _, hfits⟩ := hstage htest
    have hrunning := hfits.running
    rw [(hagrees.idle hgone).2] at hrunning
    rw [hfits.history]
    cases stage with
    | started => cases hrunning
    | configured | submitted | ended threw => simp [Stage.history, hgone]
  · intro hexit
    have hphase : self.state.phase = .returned 0 := by
      simp only [Program.exitCode, hstartup] at hexit
      split at hexit <;> simp_all
    have hgone : self.state.phase.hasDestroyed = true := by rw [hphase]; rfl
    have hall := hagrees.allowed
    rw [hphase] at hall
    refine ⟨hnames, fun test htest => ?_⟩
    obtain ⟨index, stage, hindex, hfits⟩ := hstage htest
    have hupcoming := hfits.upcoming
    have hrunning := hfits.running
    rw [(hagrees.idle hgone).1] at hupcoming
    rw [(hagrees.idle hgone).2] at hrunning
    have hsubmitted := hfits.submitted.mpr (hall.2 rfl ▸ hindex)
    rw [hfits.history]
    cases stage with
    | configured => cases hsubmitted
    | submitted => cases hupcoming
    | started => cases hrunning
    | ended threw => exact ⟨threw, by simp [Stage.history, hgone]⟩
  · intro hexit test htest
    have hgone : self.state.phase.hasDestroyed = true := by
      simp only [Program.exitCode, hstartup] at hexit
      split at hexit <;> simp_all [Phase.hasDestroyed]
    obtain ⟨_, _, _, hfits⟩ := hstage htest
    rw [hfits.history, if_pos hgone]
    simp

/-- Whatever the options, and whichever step of `main` throws: each test not ignored is created
and configured before any is started, is started once if `main` gets there, has ended before a
test is destroyed, and none is started without a logger. After exit code 0 all of this has
happened to all of them, after 1 all that were created are destroyed. -/
theorem Program.lawful_of_reachable {self : Program (workerCount ctx.maxThreads)}
    (hreach : (programMachine ctx).Reachable self) : self.Lawful ctx := by
  have hsound := Program.sound_of_reachable hreach
  cases hstartup : self.startup with
  | logging | creating index | configuring index =>
    obtain ⟨hnames, hskipped, hhistory⟩ := hsound.early (by simp [hstartup]) (by simp [hstartup])
    exact .of_startup hnames hskipped hhistory (by simp [Program.exitCode, hstartup])
  | running => exact .of_running hsound hstartup
  | failed => exact .of_failed hsound hstartup

/-- One test, on a pool with one worker. -/
def oneTest : TestContext :=
  { maxThreads := some 1, ignoreTests := (k_registry.erase "level").toFinset }

/-- A run with the one test, from its start to the return of `main`. -/
def oneTestSchedule : List (ProgramAction (workerCount oneTest.maxThreads)) :=
  .makeLogger :: List.replicate 10 .create ++ [.configure, .configure] ++
    [.construct, .submit, .pool (.bounded (.notify (.caller ()) none)), .started,
      .pool (.bounded (.workerStep onlyWorker)), .pool (.bounded (.workerStep onlyWorker)), .stop,
      .pool (.bounded (.returns onlyWorker)), .pool (.bounded (.workerStep onlyWorker)), .wait,
      .pool (.bounded (.testDone (.caller ()))), .waited, .clear,
      .pool (.bounded (.testDone .destructor)), .pool (.bounded .destructorStep),
      .pool (.bounded .destructorStep), .pool (.bounded (.workerStep onlyWorker)),
      .pool (.bounded .destructorStep), .pool (.bounded .destructorStep),
      .destroyed].map fun action => .run action true

/-- The run with one test, from its start to the return of `main`. -/
theorem lawful_one_test :
    ∃ self, (programMachine oneTest).Reachable self ∧ self.exitCode = some 0 ∧ self.Lawful oneTest := by
  obtain ⟨self, hreach, hcheck⟩ := transition.Machine.exists_reachable_of_run
    (M := programMachine oneTest) (s := {}) rfl oneTestSchedule
    (fun self => self.exitCode = some 0) (by decide +kernel)
  exact ⟨self, hreach, by simpa using hcheck, Program.lawful_of_reachable hreach⟩

end spdlogger.main
