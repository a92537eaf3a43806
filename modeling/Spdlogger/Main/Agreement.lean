import Spdlogger.Main.Stages

namespace spdlogger.main

open spdlogger.test_context (TestContext)

/-- No step of a pool both starts a test and ends one. -/
theorem Pool.begun_or_ended {workers : Nat} (pool : Pool workers) (action : PoolAction workers) :
    pool.begun action = 0 ∨ pool.ended action = 0 := by
  cases pool with
  | bounded pool =>
    cases action with
    | bounded action => cases action <;> first | exact .inl rfl | exact .inr rfl
    | unlimited action => exact .inl rfl
  | unlimited pool =>
    cases action with
    | bounded action => exact .inl rfl
    | unlimited action => cases action <;> first | exact .inl rfl | exact .inr rfl

section turn

variable {ctx : TestContext} {s next : State (workerCount ctx.maxThreads)} {tests : List TestBase}

/-- How many tests a step submits. -/
def Action.submits {workers : Nat} : Action workers → Nat
  | .submit => 1
  | _ => 0

/-- Each step of `main` keeps its tests and its pool in agreement. -/
theorem State.Agrees.turn {submitted : Nat} (h : s.Agrees ctx tests submitted)
    (hlinked : s.Linked tests.length) {action : Action (workerCount ctx.maxThreads)}
    (hturn : s.Turn ctx.maxThreads tests.length action next) (threw : Bool) :
    next.Agrees ctx (tests.mapIdx (s.track action threw)) (submitted + action.submits) := by
  have hallowed := h.allowed
  cases hturn with
  | construct pool hphase hpool =>
    rw [hphase] at hallowed
    have hnone := hlinked.none_of_outside (by rw [hphase]; rfl)
    obtain ⟨hupcoming, hrunning⟩ := add_eq_zero.mp (Pool.unended_construct hpool)
    refine h.frame ?_ ?_ ?_ ?_ fun _ _ => rfl
    · exact hallowed
    · simpa [State.upcoming, hnone] using hupcoming
    · simpa [State.running, hnone] using hrunning
    · rw [hphase]
      rfl
  | constructThrows created hphase =>
    rw [hphase] at hallowed
    have hnone := hlinked.none_of_outside (by rw [hphase]; rfl)
    have hidle : s.upcoming = 0 ∧ s.running = 0 := by simp [State.upcoming, State.running, hnone]
    obtain rfl : submitted = 0 := hallowed
    by_cases hfirst : created = 0
    · refine h.destroys ?_ (by rw [hphase]; rfl) ?_ hidle ?_ ?_
      · rw [if_pos hfirst]
        exact ⟨Nat.zero_le _, nofun⟩
      · rw [if_pos hfirst]
        rfl
      · exact hidle
      · intro index test
        simp [State.track, State.destroysTests, hfirst]
    · refine h.frame ?_ ?_ ?_ ?_ ?_
      · rw [if_neg hfirst]
        rfl
      · rfl
      · rfl
      · rw [if_neg hfirst, hphase]
        rfl
      · intro index test
        simp [State.track, State.destroysTests, hfirst]
  | submit index pool last hphase hindex hpool hlast =>
    rw [hphase] at hallowed
    obtain rfl : submitted = index := hallowed
    obtain ⟨hupcoming, hrunning⟩ := (hlinked.pool pool hpool).passes_submit hlast
    refine h.submits hindex ?_ ?_ ?_ ?_ fun _ _ => rfl
    · rfl
    · rw [hphase]
      rfl
    · simpa [State.upcoming, hpool] using hupcoming
    · simpa [State.running, hpool] using hrunning
  | submitThrows numbered index pool last hphase hindex hpool hlast =>
    rw [hphase] at hallowed
    obtain ⟨hupcoming, hrunning⟩ := Pool.passes_throw hlast
    refine h.frame ?_ ?_ ?_ ?_ fun _ _ => rfl
    · exact hallowed.le.trans hindex.le
    · simpa [State.upcoming, hpool] using hupcoming
    · simpa [State.running, hpool] using hrunning
    · rw [hphase]
      rfl
  | started hphase | stop hphase | waited pool hphase =>
    rw [hphase] at hallowed
    refine h.frame ?_ ?_ ?_ ?_ fun _ _ => rfl
    · exact hallowed
    · rfl
    · rfl
    · rw [hphase]
      rfl
  | heartbeat => exact h.frame hallowed rfl rfl rfl fun _ _ => rfl
  | wait pool last hphase hpool hlast =>
    rw [hphase] at hallowed
    obtain ⟨hupcoming, hrunning⟩ := Pool.passes_wait hlast
    refine h.frame ?_ ?_ ?_ ?_ fun _ _ => rfl
    · exact hallowed
    · simpa [State.upcoming, hpool] using hupcoming
    · simpa [State.running, hpool] using hrunning
    · rw [hphase]
      rfl
  | clear pool last hphase hpool hlast =>
    rw [hphase] at hallowed
    have hclearing := hlinked.pool pool hpool
    rw [hphase] at hclearing
    have hidle : s.upcoming = 0 ∧ s.running = 0 := by
      simpa [State.upcoming, State.running, hpool] using hclearing.idle_of_clearing
    obtain ⟨hupcoming, hrunning⟩ := Pool.passes_destroy hlast
    refine h.destroys ?_ (by rw [hphase]; rfl) ?_ hidle ?_ fun _ _ => rfl
    · exact hallowed
    · rfl
    · simpa [State.upcoming, State.running, hpool, hupcoming, hrunning] using hidle
  | destroyed unwinding pool hphase hpool hdestroyed =>
    rw [hphase] at hallowed
    have hlast := hlinked.pool pool hpool
    rw [hphase] at hlast
    have hidle : s.upcoming = 0 ∧ s.running = 0 := by
      simpa [State.upcoming, State.running, hpool] using hlast.idle_of_destroyed hdestroyed
    cases unwinding with
    | true =>
      refine h.destroys ?_ (by rw [hphase]; rfl) ?_ hidle ⟨rfl, rfl⟩ ?_
      · exact ⟨hallowed, nofun⟩
      · rfl
      · intro index test
        simp [State.track, State.destroysTests, hphase]
    | false =>
      have hall : submitted = tests.length := hallowed
      refine h.frame ?_ ?_ ?_ ?_ ?_
      · exact ⟨hall.le, fun _ => hall⟩
      · exact hidle.1.symm
      · exact hidle.2.symm
      · rw [hphase]
        rfl
      · intro index test
        simp [State.track, State.destroysTests, hphase]
  | pool action pool last hpool hlast =>
    obtain ⟨hupcoming, hrunning⟩ := (hlinked.pool pool hpool).passes hlast
    have htrack : s.track (.pool action) threw = fun index test =>
        if index ∈ pool.begun action then test.start
        else if index ∈ pool.ended action then test.finish threw else test := by
      funext index test
      simp only [State.track, hpool, Option.elim_some]
    rw [htrack]
    refine h.runs ?_ ?_ (pool.begun_or_ended action) ?_ threw
    · simpa [State.upcoming, hpool] using hupcoming
    · simpa [State.running, hpool] using hrunning
    · rfl

end turn

section runs

variable {ctx : TestContext}

/-- The tests that `ctx` selects, in the order of the registry. -/
def selected (ctx : TestContext) : List String := k_registry.filter ctx.shouldRun

/-- A test as it is created. -/
def TestBase.create (name : String) : TestBase := { name }

/-- What `main` has done with its tests at each point of the startup. -/
def Program.Sound (ctx : TestContext) (self : Program (workerCount ctx.maxThreads)) : Prop :=
  match self.startup with
  | .logging => self.tests = [] ∧ self.skipped = [] ∧ self.state = {}
  | .creating index =>
    self.tests = ((k_registry.take index).filter ctx.shouldRun).map TestBase.create ∧
      self.skipped = (k_registry.take index).filter (fun name => !ctx.shouldRun name) ∧
      self.state = {}
  | .configuring index =>
    self.tests = (selected ctx).mapIdx (fun other name =>
        if other < index then (TestBase.create name).configure ctx else TestBase.create name) ∧
      self.skipped = k_registry.filter (fun name => !ctx.shouldRun name) ∧ self.state = {}
  | .running => self.tests.map TestBase.name = selected ctx ∧
      self.skipped = k_registry.filter (fun name => !ctx.shouldRun name) ∧
      (mainMachine ctx.maxThreads self.tests.length).Reachable self.state ∧
      ∃ submitted, self.state.Agrees ctx self.tests submitted
  | .failed => self.tests.map TestBase.name <+: selected ctx ∧
      self.skipped <+: k_registry.filter (fun name => !ctx.shouldRun name) ∧
      ∀ test ∈ self.tests, test.history = [.destroyed] ∨
        test.history = [.configured (test.config ctx), .destroyed]

/-- The registry has nine tests. -/
theorem length_selected_le (ctx : TestContext) : (selected ctx).length ≤ 9 :=
  List.length_filter_le _ _

/-- What `Sound` says of a program past its startup. -/
theorem Program.Sound.running {self : Program (workerCount ctx.maxThreads)} (h : self.Sound ctx) 
    (hstartup : self.startup = .running) :
    self.tests.length < 2 ^ 31 ∧
      (mainMachine ctx.maxThreads self.tests.length).Reachable self.state ∧
      ∃ submitted, self.state.Agrees ctx self.tests submitted := by
  simp only [Program.Sound, hstartup] at h
  obtain ⟨hnames, _, hreach, hagrees⟩ := h
  have hle := length_selected_le ctx
  rw [← hnames, List.length_map] at hle
  exact ⟨by omega, hreach, hagrees⟩

/-- The tests are as they were but for what the step does to each. -/
theorem Program.run_eq_some_iff {self next : Program (workerCount ctx.maxThreads)}
    {action : Action (workerCount ctx.maxThreads)} {threw : Bool} :
    self.step ctx (.run action threw) = some next ↔ self.startup = .running ∧
      ∃ state, self.state.step ctx.maxThreads self.tests.length action = some state ∧
        next = { self with state, tests := self.tests.mapIdx (self.state.track action threw) } := by
  cases hstartup : self.startup <;> simp [Program.step, hstartup, eq_comm]

/-- No step renames a test. -/
theorem name_track {workers : Nat} (s : State workers) (action : Action workers) (threw : Bool)
    (index : Nat) (test : TestBase) : (s.track action threw index test).name = test.name := by
  unfold State.track
  cases action with
  | pool action =>
    dsimp only
    split
    · unfold TestBase.start
      split <;> rfl
    · split <;> rfl
  | _ =>
    dsimp only
    split <;> rfl

/-- What indexing does not change can be read off the list itself. -/
theorem map_mapIdx {α β γ : Type} {make : Nat → α → β} {f : α → γ} {g : β → γ}
    (hmake : ∀ index a, g (make index a) = f a) (l : List α) : (l.mapIdx make).map g = l.map f := by
  refine List.ext_getElem? fun index => ?_
  simp only [List.getElem?_map, List.getElem?_mapIdx, Option.map_map]
  exact congrFun (congrArg Option.map (funext (hmake index))) _

/-- The configuration does not rename a test. -/
theorem name_startup (index other : Nat) (name : String) :
    (if other < index then (TestBase.create name).configure ctx else TestBase.create name).name =
      id name := by
  split <;> rfl

/-- One more entry of the registry is skipped, or its test is created. -/
theorem Program.Sound.create {self next : Program (workerCount ctx.maxThreads)} {index : Nat}
    (h : self.Sound ctx) (hstartup : self.startup = .creating index)
    (hstep : self.step ctx .create = some next) : next.Sound ctx := by
  simp only [Program.Sound, hstartup] at h
  obtain ⟨htests, hskipped, hstate⟩ := h
  simp only [Program.step, hstartup] at hstep
  cases hname : k_registry[index]? with
  | none =>
    have hall : k_registry.take index = k_registry :=
      List.take_of_length_le (List.getElem?_eq_none_iff.mp hname)
    rw [hall] at htests hskipped
    simp only [hname, Option.some.injEq] at hstep
    subst hstep
    refine ⟨?_, hskipped, hstate⟩
    rw [htests]
    simp only [Nat.not_lt_zero, if_false]
    exact (List.mapIdx_eq_iff.mpr fun _ => List.getElem?_map).symm
  | some testName =>
    have hnext : k_registry.take (index + 1) = k_registry.take index ++ [testName] := by
      rw [List.take_add_one, hname, Option.toList_some]
    simp only [hname] at hstep
    cases hselected : ctx.shouldRun testName with
    | true =>
      simp only [hselected, if_true, Option.some.injEq] at hstep
      subst hstep
      simp [Program.Sound, hnext, List.filter_append, hselected, htests, hskipped, hstate,
        TestBase.create]
    | false =>
      simp only [hselected, Bool.false_eq_true, if_false, Option.some.injEq] at hstep
      subst hstep
      simp [Program.Sound, hnext, List.filter_append, hselected, htests, hskipped, hstate]

/-- The tests of a startup that fails are destroyed as they are. -/
theorem Program.Sound.fail {self : Program (workerCount ctx.maxThreads)}
    (hnames : self.tests.map TestBase.name <+: selected ctx)
    (hskipped : self.skipped <+: k_registry.filter fun name => !ctx.shouldRun name)
    (hhistory : ∀ test ∈ self.tests,
      test.history = [] ∨ test.history = [.configured (test.config ctx)]) :
    self.fail.Sound ctx := by
  refine ⟨?_, hskipped, ?_⟩
  · have hsame : (self.tests.map TestBase.destroy).map TestBase.name = self.tests.map TestBase.name := by
      rw [List.map_map]
      rfl
    exact hsame ▸ hnames
  · intro test htest
    obtain ⟨earlier, hearlier, rfl⟩ := List.mem_map.mp htest
    obtain hcreated | hconfigured := hhistory earlier hearlier
    · exact .inl (congrArg (· ++ [TestEvent.destroyed]) hcreated)
    · exact .inr (congrArg (· ++ [TestEvent.destroyed]) hconfigured)

/-- One more test is configured. -/
theorem Program.Sound.configure {self next : Program (workerCount ctx.maxThreads)} {index : Nat}
    (h : self.Sound ctx) (hstartup : self.startup = .configuring index)
    (hstep : self.step ctx .configure = some next) : next.Sound ctx := by
  simp only [Program.Sound, hstartup] at h
  obtain ⟨htests, hskipped, hstate⟩ := h
  simp only [Program.step, hstartup] at hstep
  cases htest : self.tests[index]? with
  | some test =>
    simp only [htest, Option.some.injEq] at hstep
    subst hstep
    refine ⟨?_, hskipped, hstate⟩
    have hfresh := htest
    rw [htests, List.getElem?_mapIdx] at hfresh
    obtain ⟨name, hname, rfl⟩ := Option.map_eq_some_iff.mp hfresh
    dsimp only
    rw [htests]
    refine List.ext_getElem? fun other => ?_
    rw [List.getElem?_set, List.getElem?_mapIdx, List.getElem?_mapIdx]
    by_cases hself : index = other
    · subst hself
      obtain ⟨hlt, rfl⟩ := List.getElem?_eq_some_iff.mp hname
      simp [hlt]
    · rw [if_neg hself]
      have hiff : other < index + 1 ↔ other < index := by omega
      simp only [hiff]
  | none =>
    simp only [htest, Option.some.injEq] at hstep
    subst hstep
    have hend : (selected ctx).length ≤ index := by
      have hlength := List.getElem?_eq_none_iff.mp htest
      rwa [htests, List.length_mapIdx] at hlength
    have hall (other : Nat) (test : TestBase) (hother : self.tests[other]? = some test) :
        ∃ name, (selected ctx)[other]? = some name ∧ test = (TestBase.create name).configure ctx := by
      rw [htests, List.getElem?_mapIdx] at hother
      obtain ⟨name, hname, rfl⟩ := Option.map_eq_some_iff.mp hother
      have hlt := (List.getElem?_eq_some_iff.mp hname).1
      exact ⟨name, hname, if_pos (hlt.trans_le hend)⟩
    have hnames : self.tests.map TestBase.name = selected ctx := by
      rw [htests, map_mapIdx (name_startup index), List.map_id]
    refine ⟨hnames, hskipped, .init hstate, 0, ?_, ?_, ?_, ?_⟩
    · rw [hstate]
      rfl
    · intro other test hother
      obtain ⟨name, hname, rfl⟩ := hall other test hother
      refine ⟨.configured, rfl, ?_, ?_, ?_, by simp [Stage.isSubmitted]⟩
      · rw [hstate]
        rfl
      · rw [hstate]
        rfl
      · rw [hstate]
        rfl
    · rw [hstate]
      exact fun _ _ => ⟨rfl, rfl⟩
    · rw [hstate]
      intro hgone
      cases hgone

/-- A step of the pool phase keeps the vector and what is known of its tests. -/
theorem Program.Sound.run {self next : Program (workerCount ctx.maxThreads)}
    (h : self.Sound ctx) (hstartup : self.startup = .running)
    {action : Action (workerCount ctx.maxThreads)} {threw : Bool}
    (hstep : self.step ctx (.run action threw) = some next) : next.Sound ctx := by
  obtain ⟨hcount, _, _⟩ := h.running hstartup
  simp only [Program.Sound, hstartup] at h
  obtain ⟨hnames, hskipped, hreach, submitted, hagrees⟩ := h
  obtain ⟨_, state, hstate, rfl⟩ := Program.run_eq_some_iff.mp hstep
  have hlinked := State.linked_of_reachable hcount hreach
  simp only [Program.Sound, hstartup]
  refine ⟨?_, hskipped, ?_, _, hagrees.turn hlinked (State.turn_of_step hstate) threw⟩
  · rw [map_mapIdx (name_track self.state action threw)]
    exact hnames
  · rw [List.length_mapIdx]
    exact hreach.step hstate

/-- Up to the end of the startup the tests are created, and the first of them configured. -/
theorem Program.Sound.early {self : Program (workerCount ctx.maxThreads)} (h : self.Sound ctx)
    (hrunning : self.startup ≠ .running) (hfailed : self.startup ≠ .failed) :
    self.tests.map TestBase.name <+: selected ctx ∧
      (self.skipped <+: k_registry.filter fun name => !ctx.shouldRun name) ∧
      ∀ test ∈ self.tests, test.history = [] ∨ test.history = [.configured (test.config ctx)] := by
  cases hstartup : self.startup with
  | logging =>
    simp only [Program.Sound, hstartup] at h
    obtain ⟨htests, hskipped, _⟩ := h
    simp [htests, hskipped]
  | creating index =>
    simp only [Program.Sound, hstartup] at h
    obtain ⟨htests, hskipped, _⟩ := h
    have hprefix := List.take_prefix index k_registry
    refine ⟨?_, ?_, fun test htest => ?_⟩
    · have hname : TestBase.name ∘ TestBase.create = id := rfl
      rw [htests, List.map_map, hname, List.map_id]
      exact hprefix.filter _
    · rw [hskipped]
      exact hprefix.filter _
    · rw [htests] at htest
      obtain ⟨name, _, rfl⟩ := List.mem_map.mp htest
      exact .inl rfl
  | configuring index =>
    simp only [Program.Sound, hstartup] at h
    obtain ⟨htests, hskipped, _⟩ := h
    refine ⟨?_, ?_, fun test htest => ?_⟩
    · rw [htests, map_mapIdx (name_startup index), List.map_id]
    · rw [hskipped]
    · rw [htests, List.mem_mapIdx] at htest
      obtain ⟨other, hother, rfl⟩ := htest
      split
      · exact .inr rfl
      · exact .inl rfl
  | running => exact absurd hstartup hrunning
  | failed => exact absurd hstartup hfailed

/-- The startup fails before its first test, while it creates them or while it
configures them. -/
theorem Program.Sound.throws {self next : Program (workerCount ctx.maxThreads)}
    (h : self.Sound ctx) (hstep : self.step ctx .throws = some next) : next.Sound ctx := by
  cases hstartup : self.startup with
  | logging =>
    simp only [Program.Sound, hstartup] at h
    obtain ⟨htests, hskipped, hstate⟩ := h
    simp only [Program.step, hstartup, Option.some.injEq] at hstep
    subst hstep
    simp [Program.Sound, htests, hskipped]
  | creating index | configuring index =>
    obtain ⟨hnames, hskipped, hhistory⟩ := h.early (by simp [hstartup]) (by simp [hstartup])
    simp only [Program.step, hstartup, Option.ite_none_right_eq_some, Option.some.injEq] at hstep
    obtain ⟨_, rfl⟩ := hstep
    exact .fail hnames hskipped hhistory
  | running | failed => simp [Program.step, hstartup] at hstep

/-- What `main` has done with its tests is accounted for in every reachable state. -/
theorem Program.sound_of_reachable {self : Program (workerCount ctx.maxThreads)}
    (hreach : (programMachine ctx).Reachable self) : self.Sound ctx := by
  refine transition.Machine.Reachable.invariant (I := Program.Sound ctx) ?_ ?_ hreach
  · rintro self rfl
    exact ⟨rfl, rfl, rfl⟩
  · intro self action next h hstep
    simp only [programMachine] at hstep
    cases action with
    | throws => exact h.throws hstep
    | makeLogger =>
      cases hstartup : self.startup with
      | logging =>
        simp only [Program.Sound, hstartup] at h
        simp only [Program.step, hstartup, Option.some.injEq] at hstep
        exact hstep ▸ h
      | _ => simp [Program.step, hstartup] at hstep
    | create =>
      cases hstartup : self.startup with
      | creating index => exact h.create hstartup hstep
      | _ => simp [Program.step, hstartup] at hstep
    | configure =>
      cases hstartup : self.startup with
      | configuring index => exact h.configure hstartup hstep
      | _ => simp [Program.step, hstartup] at hstep
    | run action threw =>
      cases hstartup : self.startup with
      | running => exact h.run hstartup hstep
      | _ => simp [Program.step, hstartup] at hstep

/-- No test is started before the pool is constructed. -/
theorem Program.unstarted {self : Program (workerCount ctx.maxThreads)}
    (hreach : (programMachine ctx).Reachable self)
    (hfresh : self.startup = .running → self.state.phase = .constructing) {test : TestBase}
    (htest : test ∈ self.tests) : .started ∉ test.history := by
  have hsound := Program.sound_of_reachable hreach
  cases hstartup : self.startup with
  | running =>
    simp only [Program.Sound, hstartup] at hsound
    obtain ⟨_, _, _, submitted, hagrees⟩ := hsound
    obtain ⟨index, hindex, rfl⟩ := List.mem_iff_getElem.mp htest
    have hallowed := hagrees.allowed
    rw [hfresh hstartup] at hallowed
    obtain rfl : submitted = 0 := hallowed
    rw [hagrees.history_of_le (List.getElem?_eq_getElem hindex) (Nat.zero_le _), hfresh hstartup]
    simp [Phase.hasDestroyed]
  | failed =>
    simp only [Program.Sound, hstartup] at hsound
    obtain hdiscarded | hunstarted := hsound.2.2 test htest
    · simp [hdiscarded]
    · simp [hunstarted]
  | _ =>
    obtain ⟨_, _, hhistory⟩ := hsound.early (by simp [hstartup]) (by simp [hstartup])
    obtain hcreated | hconfigured := hhistory test htest
    · simp [hcreated]
    · simp [hconfigured]

/-- The startup leaves the state of the pool phase alone, and comes there only once. -/
theorem Program.state_of_startup {self next : Program (workerCount ctx.maxThreads)}
    (hstartup : self.startup ≠ .running) {action : ProgramAction (workerCount ctx.maxThreads)}
    (hstep : self.step ctx action = some next) : next.state = self.state := by
  unfold Program.step at hstep
  split at hstep
  case h_7 hrunning => exact absurd hrunning hstartup
  case h_8 => cases hstep
  case h_2 | h_3 =>
    split at hstep
    · try split at hstep
      all_goals
        cases hstep
        rfl
    · cases hstep
      rfl
  case h_1 | h_4 =>
    cases hstep
    rfl
  all_goals
    obtain ⟨_, rfl⟩ := Option.ite_some_none_eq_some.mp hstep
    rfl

/-- The pool is not constructed before the startup is done. -/
theorem Program.state_eq_of_startup {self : Program (workerCount ctx.maxThreads)}
    (hreach : (programMachine ctx).Reachable self) (hstartup : self.startup ≠ .running) :
    self.state = {} := by
  refine transition.Machine.Reachable.invariant
    (I := fun self => self.startup ≠ .running → self.state = {}) ?_ ?_ hreach hstartup
  · rintro self rfl _
    rfl
  · intro self action next h hstep hnext
    by_cases hrunning : self.startup = .running
    · simp only [programMachine, Program.step, hrunning] at hstep
      cases action <;> simp at hstep
      obtain ⟨state, _, rfl⟩ := hstep
      exact absurd rfl hnext
    · rw [Program.state_of_startup hrunning hstep]
      exact h hrunning

end runs

end spdlogger.main
