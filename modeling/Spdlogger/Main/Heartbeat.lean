import Spdlogger.Main.Counter

namespace spdlogger.main

open spdlogger.test_context (TestContext)

/-- A multiset that has the index of each entry with the property once, and nothing else,
has as many members as there are such entries. -/
theorem card_eq_countP {α : Type} {p : α → Bool} {l : List α} {m : Multiset Nat}
    (hentries : ∀ index a, l[index]? = some a → m.count index = if p a then 1 else 0)
    (hbeyond : ∀ index, l.length ≤ index → m.count index = 0) : m.card = l.countP p := by
  induction l using List.reverseRecOn generalizing m with
  | nil =>
    have hzero : m = 0 := Multiset.ext.mpr fun index => by simpa using hbeyond index (Nat.zero_le _)
    simp [hzero]
  | append_singleton l a ih =>
    have hrest : (m.filter (· ≠ l.length)).card = l.countP p := by
      refine ih (fun index b hb => ?_) fun index hindex => ?_
      · have hlt : index < l.length := (List.getElem?_eq_some_iff.mp hb).1
        rw [Multiset.count_filter, if_pos (Nat.ne_of_lt hlt)]
        exact hentries index b ((List.getElem?_append_left hlt).trans hb)
      · by_cases hlast : index = l.length
        · rw [Multiset.count_filter, if_neg (by simpa using hlast)]
        · rw [Multiset.count_filter, if_pos hlast]
          exact hbeyond index (by simp; omega)
    have hlast : (m.filter fun index => ¬(index ≠ l.length)).card = if p a then 1 else 0 := by
      have hcount := hentries l.length a (by simp)
      rw [Multiset.count_eq_card_filter_eq] at hcount
      rw [← hcount]
      exact congrArg Multiset.card (Multiset.filter_congr fun index _ => by rw [not_not, eq_comm])
    rw [← Multiset.filter_add_not (· ≠ l.length) m, Multiset.card_add, hrest, hlast,
      List.countP_append, List.countP_singleton]

variable {ctx : TestContext}

/-- The test has been started, and `start` is over. -/
def TestBase.isOver (self : TestBase) : Bool :=
  self.history.any fun event => match event with
    | .ended _ => true
    | _ => false

/-- A test is over when its `start` has ended. -/
theorem TestBase.isOver_iff {self : TestBase} : self.isOver ↔ ∃ threw, .ended threw ∈ self.history := by
  unfold TestBase.isOver
  rw [List.any_eq_true]
  constructor
  · rintro ⟨event, hevent, hended⟩
    cases event with
    | ended threw => exact ⟨threw, hevent⟩
    | _ => cases hended
  · rintro ⟨threw, hended⟩
    exact ⟨_, hended, rfl⟩

/-- A test is over when its stage says so. -/
theorem Stage.Fits.isOver_iff {s : State (workerCount ctx.maxThreads)} {submitted index : Nat}
    {test : TestBase} {stage : Stage} (hfits : stage.Fits ctx s submitted index test) :
    test.isOver ↔ ∃ threw, stage = .ended threw := by
  unfold TestBase.isOver
  rw [hfits.history]
  cases stage <;> cases s.phase.hasDestroyed <;> simp [Stage.history]

/-- The tests that are not over are those to be started and those under way. -/
theorem State.unended_eq {workers : Nat} (s : State workers) :
    s.unended = (s.upcoming + s.running).card := by
  unfold State.unended State.upcoming State.running
  cases s.testThreadPool <;> rfl

/-- The tests in the pool are those that are submitted and not over. -/
theorem State.Agrees.unended_eq_countP {s : State (workerCount ctx.maxThreads)}
    {tests : List TestBase} {submitted : Nat} (h : s.Agrees ctx tests submitted) :
    s.unended = (tests.take submitted).countP fun test => !test.isOver := by
  rw [s.unended_eq]
  refine card_eq_countP (fun index test htest => ?_) fun index hindex => ?_
  · rw [List.getElem?_take] at htest
    obtain ⟨hlt, htest⟩ := Option.ite_none_right_eq_some.mp htest
    obtain ⟨stage, hfits⟩ := h.stages index test htest
    have hover := hfits.isOver_iff
    have hsubmitted := hfits.submitted.mpr hlt
    rw [Multiset.count_add, hfits.upcoming, hfits.running]
    cases stage with
    | configured => cases hsubmitted
    | submitted | started => simp_all [Stage.upcoming, Stage.running]
    | ended threw => simp_all [Stage.upcoming, Stage.running]
  · rw [Multiset.count_add]
    rw [List.length_take] at hindex
    obtain hfar | hnear := Nat.lt_or_ge index tests.length
    · obtain ⟨stage, hfits⟩ := h.stages index _ (List.getElem?_eq_getElem hfar)
      have hsubmitted := hfits.submitted
      rw [hfits.upcoming, hfits.running]
      cases stage with
      | configured => rfl
      | _ => exact absurd (hsubmitted.mp rfl) (by omega)
    · obtain ⟨hupcoming, hrunning⟩ := h.beyond index hnear
      rw [hupcoming, hrunning]

/-- The merged model counts a test until its task returns, so its loop goes on while there
is a test that is not over. -/
theorem Program.isOver_of_activeTestsCount {self : Program (workerCount ctx.maxThreads)}
    (hreach : (programMachine ctx).Reachable self) (hstartup : self.startup = .running)
    (hphase : self.state.phase = .heartbeat) (hzero : self.state.activeTestsCount = 0)
    {test : TestBase} (htest : test ∈ self.tests) : test.isOver := by
  obtain ⟨htests, hmain, submitted, hagrees⟩ :=
    (Program.sound_of_reachable hreach).running hstartup
  have hcount := State.activeTestsCount_eq htests hmain (by rw [hphase]; rfl)
  have hall := hagrees.allowed
  rw [hphase] at hall
  obtain rfl : submitted = self.tests.length := hall
  rw [hzero, hphase, hagrees.unended_eq_countP, List.take_length] at hcount
  have hnone : (self.tests.countP fun test => !test.isOver) = 0 := by
    simpa [Phase.uncounted] using hcount.symm
  simpa using List.countP_eq_zero.mp hnone test htest

/-- The counter and the tasks, as `main` comes along. -/
structure Heartbeat.Sound (ctx : TestContext) (s : Heartbeat (workerCount ctx.maxThreads)) :
    Prop where
  reachable : (programMachine ctx).Reachable s.program
  count : s.activeTestsCount = ↑(s.tasks.countP fun task => !task.isOut)
  length : s.tasks.length ≤ s.program.tests.length
  early : s.program.startup ≠ .running → s.tasks = []
  submitted : s.program.startup = .running → ∃ submitted ≤ s.tasks.length,
    s.program.state.Agrees ctx s.program.tests submitted
  counted : ∀ (index : Nat) (test : TestBase), s.program.tests[index]? = some test →
    .started ∈ test.history → index < s.tasks.length
  fits : ∀ (index : Nat) (test : TestBase) (task : TaskPhase), s.program.tests[index]? = some test →
    s.tasks[index]? = some task → task.Fits test

/-- A step of `main` once it is past its startup. -/
theorem Heartbeat.Sound.run {self : Heartbeat (workerCount ctx.maxThreads)} (h : self.Sound ctx)
    {action : Action (workerCount ctx.maxThreads)} {threw : Bool}
    (hpermits : self.permits (.run action threw)) {program : Program (workerCount ctx.maxThreads)}
    (hstep : self.program.step ctx (.run action threw) = some program) :
    { self with program }.Sound ctx := by
  have hnext : (programMachine ctx).Reachable program := h.reachable.step hstep
  obtain ⟨hstartup, state, hstate, rfl⟩ := Program.run_eq_some_iff.mp hstep
  obtain ⟨submitted, hle, hagrees⟩ := h.submitted hstartup
  obtain ⟨htests, hmain, _⟩ := (Program.sound_of_reachable h.reachable).running hstartup
  have hlinked := State.linked_of_reachable htests hmain
  have hturn := State.turn_of_step hstate
  refine ⟨hnext, h.count, ?_, fun hearly => absurd hstartup hearly, fun _ => ?_, ?_, ?_⟩
  · exact h.length.trans_eq (List.length_mapIdx).symm
  · refine ⟨_, ?_, hagrees.turn hlinked hturn threw⟩
    cases hturn with
    | submit index pool last hphase =>
      have hcounted : self.program.state.phase ≠ .starting self.tasks.length := by
        simpa [Heartbeat.permits] using hpermits
      have hallowed := hagrees.allowed
      rw [hphase] at hallowed hcounted
      obtain rfl : submitted = index := hallowed
      have hne : submitted ≠ self.tasks.length := fun heq => hcounted (congrArg Phase.starting heq)
      simp only [Action.submits]
      omega
    | _ => exact hle
  · intro index test htest hstarted
    simp only [List.getElem?_mapIdx, Option.map_eq_some_iff] at htest
    obtain ⟨earlier, hearlier, rfl⟩ := htest
    obtain hbefore | ⟨step, pool, rfl, hpool, hbegun⟩ := State.begun_of_started hstarted
    · exact h.counted index earlier hearlier hbefore
    · cases hturn with
      | pool action other last hother hlast =>
        obtain rfl : pool = other := Option.some.inj (hpool.symm.trans hother)
        have hpasses := ((hlinked.pool pool hpool).passes hlast).1
        refine (hagrees.lt_of_upcoming ?_).trans_le hle
        rw [State.upcoming, hpool, Option.elim_some, ← hpasses]
        exact Multiset.mem_add.mpr (.inr hbegun)
  · intro index test task htest htask
    simp only [List.getElem?_mapIdx, Option.map_eq_some_iff] at htest
    obtain ⟨earlier, hearlier, rfl⟩ := htest
    refine (h.fits index earlier task hearlier htask).track ?_
    rintro pool rfl hended
    have hcounted : self.countedOut pool threw := by simpa [Heartbeat.permits] using hpermits
    exact Option.some.inj (htask.symm.trans (hcounted index hended))

/-- A step of the startup. -/
theorem Heartbeat.Sound.starts {self : Heartbeat (workerCount ctx.maxThreads)} (h : self.Sound ctx)
    (hstartup : self.program.startup ≠ .running)
    {action : ProgramAction (workerCount ctx.maxThreads)}
    {program : Program (workerCount ctx.maxThreads)}
    (hstep : self.program.step ctx action = some program) : { self with program }.Sound ctx := by
  have hnext : (programMachine ctx).Reachable program := h.reachable.step hstep
  have hnone := h.early hstartup
  have hstate : program.state = {} :=
    (Program.state_of_startup hstartup hstep).trans (Program.state_eq_of_startup h.reachable hstartup)
  refine ⟨hnext, h.count, by simp [hnone], fun _ => hnone, ?_, ?_, ?_⟩
  · intro hrunning
    have hrunning : program.startup = .running := hrunning
    obtain ⟨_, _, submitted, hagrees⟩ := (Program.sound_of_reachable hnext).running hrunning
    have hallowed := hagrees.allowed
    rw [hstate] at hallowed
    exact ⟨submitted, hallowed.trans_le (Nat.zero_le _), hagrees⟩
  · intro index test htest hstarted
    have hfresh : program.startup = .running → program.state.phase = .constructing :=
      fun _ => by rw [hstate]
    exact absurd hstarted (Program.unstarted hnext hfresh (List.mem_of_getElem? htest))
  · intro index test task _ htask
    simp [hnone] at htask

/-- The submission loop counts its next test in. -/
theorem Heartbeat.Sound.fetchAdd {self next : Heartbeat (workerCount ctx.maxThreads)}
    (h : self.Sound ctx) (hmove : self.Move ctx .fetchAdd next) : next.Sound ctx := by
  obtain ⟨hat, hless⟩ := hmove
  have hstartup := Program.startup_of_isAt hat
  obtain ⟨submitted, hle, hagrees⟩ := h.submitted hstartup
  have hallowed := hagrees.allowed
  rw [Program.phase_of_isAt hat] at hallowed
  obtain rfl : submitted = self.tasks.length := hallowed
  refine ⟨h.reachable, ?_, ?_, fun hearly => absurd hstartup hearly, fun _ => ⟨_, ?_, hagrees⟩, ?_, ?_⟩
  · simp [h.count, TaskPhase.isOut]
  · simpa [Nat.succ_le_iff] using hless
  · simp
  · intro index test htest hstarted
    have hcounted := h.counted index test htest hstarted
    simp only [List.length_append, List.length_singleton]
    omega
  · intro index test task htest htask
    obtain hlt | hge := Nat.lt_or_ge index self.tasks.length
    · rw [List.getElem?_append_left hlt] at htask
      exact h.fits index test task htest htask
    · obtain ⟨_, rfl⟩ := List.getElem?_eq_some_iff.mp htask
      have hhistory := hagrees.history_of_le htest hge
      rw [Program.phase_of_isAt hat] at hhistory
      simp only [List.getElem_append_right hge, List.getElem_singleton]
      intro threw
      simp [hhistory, Phase.hasDestroyed]

/-- A task goes on, and fits its test as it now stands. -/
theorem Heartbeat.Sound.set {self : Heartbeat (workerCount ctx.maxThreads)} (h : self.Sound ctx)
    {index : Nat} {task next : TaskPhase} (htask : self.tasks[index]? = some task)
    {activeTestsCount : Int}
    (hcount : activeTestsCount + (if task.isOut then 0 else 1) =
      self.activeTestsCount + if next.isOut then 0 else 1)
    (hfits : ∀ test, self.program.tests[index]? = some test → next.Fits test) :
    { self with activeTestsCount, tasks := self.tasks.set index next }.Sound ctx := by
  have hcounted := countP_set_add (fun task => !task.isOut) (b := next) htask
  refine ⟨h.reachable, ?_, ?_, fun hearly => ?_, fun hrunning => ?_, ?_, ?_⟩
  · rw [h.count] at hcount
    cases htaskOut : task.isOut <;> cases hnextOut : next.isOut
    all_goals simp_all
    all_goals omega
  · rw [List.length_set]
    exact h.length
  · rw [h.early hearly, List.set_nil]
  · rw [List.length_set]
    exact h.submitted hrunning
  · rw [List.length_set]
    exact h.counted
  · intro other test phase htest hphase
    rw [List.getElem?_set] at hphase
    split at hphase
    case isTrue hsame =>
      subst hsame
      simp only [Option.ite_none_right_eq_some, Option.some.injEq] at hphase
      exact hphase.2 ▸ hfits test htest
    case isFalse => exact h.fits other test phase htest hphase

/-- The end of a `start` leaves the counter and the task counted. -/
theorem Heartbeat.Sound.finish {self next : Heartbeat (workerCount ctx.maxThreads)}
    (h : self.Sound ctx) {index : Nat} {threw : Bool}
    (hmove : self.Move ctx (.finish index threw) next) : next.Sound ctx := by
  cases hmove with
  | finish _ _ htask hunderWay =>
    refine h.set htask (by simp [TaskPhase.isOut]) fun test htest => ⟨?_, h.fits index test _ htest htask⟩
    simp only [htest, Option.any_some, TestBase.isUnderWay, decide_eq_true_eq] at hunderWay
    exact List.mem_of_getLast? hunderWay

/-- A `fetch_sub` takes one from the counter and its task out. -/
theorem Heartbeat.Sound.fetchSub {self next : Heartbeat (workerCount ctx.maxThreads)}
    (h : self.Sound ctx) {index : Nat} (hmove : self.Move ctx (.fetchSub index) next) :
    next.Sound ctx := by
  cases hmove with
  | fetchSub _ threw htask =>
    refine h.set htask (by simp [TaskPhase.isOut]) fun test htest => ?_
    obtain ⟨hstarted, hlast⟩ := h.fits index test _ htest htask
    exact ⟨hstarted, fun other hother => absurd hother (hlast other)⟩

/-- The counter agrees with the tasks in every reachable state. -/
theorem Heartbeat.sound_of_reachable {self : Heartbeat (workerCount ctx.maxThreads)}
    (hreach : (heartbeatMachine ctx).Reachable self) : self.Sound ctx := by
  refine transition.Machine.Reachable.invariant (I := Heartbeat.Sound ctx) ?_ ?_ hreach
  · rintro self rfl
    exact ⟨.init rfl, rfl, Nat.le_refl _, fun _ => rfl, nofun, nofun, nofun⟩
  · intro self action next h hstep
    have hmove := Heartbeat.move_of_step hstep
    cases action with
    | fetchAdd => exact h.fetchAdd hmove
    | finish index threw => exact h.finish hmove
    | fetchSub index => exact h.fetchSub hmove
    | clock | load =>
      cases hmove
      all_goals exact ⟨h.reachable, h.count, h.length, h.early, h.submitted, h.counted, h.fits⟩
    | program action =>
      cases hmove with
      | program _ program hpermits hprogram =>
        by_cases hstartup : self.program.startup = .running
        · cases action with
          | run action threw => exact h.run hpermits hprogram
          | _ => simp [Program.step, hstartup] at hprogram
        · exact h.starts hstartup hprogram

/-- In the heartbeat loop every test is counted in. -/
theorem Heartbeat.Sound.length_eq {self : Heartbeat (workerCount ctx.maxThreads)}
    (h : self.Sound ctx) (hat : self.program.isAt .heartbeat) :
    self.tasks.length = self.program.tests.length := by
  obtain ⟨submitted, hle, hagrees⟩ := h.submitted (Program.startup_of_isAt hat)
  have hallowed := hagrees.allowed
  rw [Program.phase_of_isAt hat] at hallowed
  obtain rfl : submitted = self.program.tests.length := hallowed
  exact Nat.le_antisymm h.length hle

/-- The loop reads 0 when the last task has counted itself out. -/
theorem Heartbeat.Sound.allOut_iff {self : Heartbeat (workerCount ctx.maxThreads)}
    (h : self.Sound ctx) (hat : self.program.isAt .heartbeat) :
    self.activeTestsCount = 0 ↔ self.AllOut := by
  have hlength := h.length_eq hat
  rw [h.count, Int.natCast_eq_zero, List.countP_eq_zero]
  constructor
  · intro hall index hindex
    have htask := hall _ (List.getElem_mem (hindex.trans_eq hlength.symm))
    cases hphase : self.tasks[index] with
    | out threw => exact ⟨threw, List.getElem?_eq_some_iff.mpr ⟨_, hphase⟩⟩
    | _ => simp [hphase, TaskPhase.isOut] at htask
  · intro hall task htask
    obtain ⟨index, hindex, rfl⟩ := List.mem_iff_getElem.mp htask
    obtain ⟨threw, hout⟩ := hall index (hindex.trans_eq hlength)
    obtain ⟨_, hout⟩ := List.getElem?_eq_some_iff.mp hout
    simp [hout, TaskPhase.isOut]

/-- Where a test is over, its task has counted itself out. -/
theorem Heartbeat.Sound.out_of_isOver {self : Heartbeat (workerCount ctx.maxThreads)}
    (h : self.Sound ctx) (hat : self.program.isAt .heartbeat) {index : Nat}
    (hindex : index < self.program.tests.length) (hover : self.program.tests[index].isOver) :
    ∃ threw, self.tasks[index]? = some (.out threw) := by
  have hlt : index < self.tasks.length := hindex.trans_eq (h.length_eq hat).symm
  have hcounted := List.getElem?_eq_getElem hlt
  have hfits := h.fits index _ _ (List.getElem?_eq_getElem hindex) hcounted
  obtain ⟨threw, hended⟩ := TestBase.isOver_iff.mp hover
  rw [hcounted]
  cases hphase : self.tasks[index] with
  | counted =>
    rw [hphase] at hfits
    exact absurd hended (hfits threw)
  | finished =>
    rw [hphase] at hfits
    exact absurd hended (hfits.2 threw)
  | out threw => exact ⟨threw, rfl⟩

/-- In the heartbeat loop the merged model can go round while the counter is not 0. -/
theorem Heartbeat.Sound.heartbeat {self : Heartbeat (workerCount ctx.maxThreads)}
    (h : self.Sound ctx) (hat : self.program.isAt .heartbeat) (hcounted : self.activeTestsCount ≠ 0) :
    self.program.step ctx (.run .heartbeat false) = some self.program := by
  have hstartup := Program.startup_of_isAt hat
  have hphase := Program.phase_of_isAt hat
  have hactive : self.program.state.activeTestsCount ≠ 0 := fun hzero =>
    hcounted ((h.allOut_iff hat).mpr fun index hindex => h.out_of_isOver hat hindex
      (Program.isOver_of_activeTestsCount h.reachable hstartup hphase hzero (List.getElem_mem hindex)))
  refine Program.run_eq_some_iff.mpr ⟨hstartup, self.program.state, ?_, ?_⟩
  · simp [State.step, hphase, hactive]
  · have hsame : self.program.tests.mapIdx (self.program.state.track .heartbeat false) =
        self.program.tests := mapIdx_eq_self fun _ _ => rfl
    rw [hsame]

end spdlogger.main
