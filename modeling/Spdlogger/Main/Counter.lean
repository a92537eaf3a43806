import Spdlogger.Main.Lifecycle

namespace spdlogger.main

open spdlogger.test_context (TestContext)

/-- What the submission loop and the task have done to the counter for one test. The task
counts itself out after `start` and the handlers around it, and returns to the pool only
then. -/
inductive TaskPhase where
  | counted
  | finished (threw : Bool)
  | out (threw : Bool)
  deriving DecidableEq, Repr

/-- The task has executed its `fetch_sub`. -/
def TaskPhase.isOut : TaskPhase → Bool
  | .out _ => true
  | _ => false

/-- Where the heartbeat loop stands: it is to look at the clock or to load the counter, or
it is left. -/
inductive LoopPhase where
  | clock
  | load
  | left
  deriving DecidableEq, Repr

/-- `main` with the statements that its own model takes together: each `fetch_add` apart
from the `submit` after it, the end of each `start` apart from the `fetch_sub` after it, and
the heartbeat loop by its condition and its load. `lines` are those the loop hands to the
logger. -/
structure Heartbeat (workers : Nat) where
  program : Program workers := {}
  activeTestsCount : Int := 0
  tasks : List TaskPhase := []
  loop : LoopPhase := .clock
  lines : List String := []

/-- `finish` is the end of `start`, with an exception or without. `clock` says whether there
is still time. -/
inductive HeartbeatAction (workers : Nat) where
  | fetchAdd
  | finish (index : Nat) (threw : Bool)
  | fetchSub (index : Nat)
  | clock (early : Bool)
  | load
  | program (action : ProgramAction workers)

/-- The test has been started and its task has not returned. -/
def TestBase.isUnderWay (self : TestBase) : Bool := self.history.getLast? = some .started

section steps

variable {workers : Nat}

/-- `main` stands there, past its startup. -/
def Program.isAt (self : Program workers) (phase : Phase) : Bool :=
  self.startup = .running ∧ self.state.phase = phase

/-- The tests that end with a step have counted themselves out. -/
def Heartbeat.countedOut (self : Heartbeat workers) (action : PoolAction workers) (threw : Bool) :
    Prop :=
  ∀ index ∈ self.program.state.testThreadPool.elim 0 fun pool => pool.ended action,
    self.tasks[index]? = some (.out threw)

instance (self : Heartbeat workers) (action : PoolAction workers) (threw : Bool) :
    Decidable (self.countedOut action threw) :=
  Multiset.decidableForallMultiset

/-- The statements that stand around a step of `main` are done. -/
def Heartbeat.permits (self : Heartbeat workers) : ProgramAction workers → Bool
  | .run .submit _ | .run (.submitThrows _) _ =>
    self.program.state.phase ≠ .starting self.tasks.length
  | .run .heartbeat _ => false
  | .run .stop _ => self.loop = .left
  | .run (.pool action) threw => self.countedOut action threw
  | _ => true

/-- One statement of `main` or of a task. -/
def Heartbeat.step (ctx : TestContext) (self : Heartbeat (workerCount ctx.maxThreads)) :
    HeartbeatAction (workerCount ctx.maxThreads) → Option (Heartbeat (workerCount ctx.maxThreads))
  | .fetchAdd =>
    if self.program.isAt (.starting self.tasks.length) ∧
        self.tasks.length < self.program.tests.length then
      some { self with
        activeTestsCount := self.activeTestsCount + 1
        tasks := self.tasks ++ [.counted] }
    else none
  | .finish index threw =>
    if self.tasks[index]? = some .counted ∧ self.program.tests[index]?.any TestBase.isUnderWay then
      some { self with tasks := self.tasks.set index (.finished threw) }
    else none
  | .fetchSub index =>
    match self.tasks[index]? with
    | some (.finished threw) =>
      some { self with
        activeTestsCount := self.activeTestsCount - 1
        tasks := self.tasks.set index (.out threw) }
    | _ => none
  | .clock early =>
    if self.program.isAt .heartbeat ∧ self.loop = .clock then
      some { self with loop := if early then .load else .left }
    else none
  | .load =>
    if self.program.isAt .heartbeat ∧ self.loop = .load then
      if self.activeTestsCount = 0 then
        some { self with loop := .left, lines := self.lines ++ ["all tests finished early"] }
      else some { self with loop := .clock, lines := self.lines ++ ["heartbeat"] }
    else none
  | .program action =>
    if self.permits action then
      (self.program.step ctx action).map fun program => { self with program }
    else none

/-- `main`, statement by statement where the counter is concerned. -/
def heartbeatMachine (ctx : TestContext) :
    transition.Machine (Heartbeat (workerCount ctx.maxThreads))
      (HeartbeatAction (workerCount ctx.maxThreads)) where
  init self := self = {}
  step := Heartbeat.step ctx

/-- What each of the statements does. -/
inductive Heartbeat.Move (ctx : TestContext) (self : Heartbeat (workerCount ctx.maxThreads)) :
    HeartbeatAction (workerCount ctx.maxThreads) → Heartbeat (workerCount ctx.maxThreads) → Prop where
  | fetchAdd (hat : self.program.isAt (.starting self.tasks.length))
      (hless : self.tasks.length < self.program.tests.length) :
      Move ctx self .fetchAdd { self with
        activeTestsCount := self.activeTestsCount + 1
        tasks := self.tasks ++ [.counted] }
  | finish (index : Nat) (threw : Bool) (htask : self.tasks[index]? = some .counted)
      (hunderWay : self.program.tests[index]?.any TestBase.isUnderWay) :
      Move ctx self (.finish index threw) { self with
        tasks := self.tasks.set index (.finished threw) }
  | fetchSub (index : Nat) (threw : Bool) (htask : self.tasks[index]? = some (.finished threw)) :
      Move ctx self (.fetchSub index) { self with
        activeTestsCount := self.activeTestsCount - 1
        tasks := self.tasks.set index (.out threw) }
  | clock (early : Bool) (hclock : self.loop = .clock) :
      Move ctx self (.clock early) { self with loop := if early then .load else .left }
  | leave (hat : self.program.isAt .heartbeat) (hload : self.loop = .load)
      (hzero : self.activeTestsCount = 0) :
      Move ctx self .load { self with
        loop := .left
        lines := self.lines ++ ["all tests finished early"] }
  | beat (hat : self.program.isAt .heartbeat) (hload : self.loop = .load)
      (hcounted : self.activeTestsCount ≠ 0) :
      Move ctx self .load { self with loop := .clock, lines := self.lines ++ ["heartbeat"] }
  | program (action : ProgramAction (workerCount ctx.maxThreads))
      (program : Program (workerCount ctx.maxThreads)) (hpermits : self.permits action)
      (hstep : self.program.step ctx action = some program) :
      Move ctx self (.program action) { self with program }

end steps

section lemmas

variable {ctx : TestContext}

/-- The startup is over where `main` stands at a phase. -/
theorem Program.startup_of_isAt {workers : Nat} {self : Program workers} {phase : Phase}
    (h : self.isAt phase) : self.startup = .running := by
  simp only [Program.isAt, decide_eq_true_eq] at h
  exact h.1

/-- The phase is the one where `main` stands. -/
theorem Program.phase_of_isAt {workers : Nat} {self : Program workers} {phase : Phase}
    (h : self.isAt phase) : self.state.phase = phase := by
  simp only [Program.isAt, decide_eq_true_eq] at h
  exact h.2

/-- Every statement is one of the moves. -/
theorem Heartbeat.move_of_step {self next : Heartbeat (workerCount ctx.maxThreads)}
    {action : HeartbeatAction (workerCount ctx.maxThreads)}
    (hstep : self.step ctx action = some next) : self.Move ctx action next := by
  cases action with
  | fetchAdd =>
    simp only [Heartbeat.step, Option.ite_none_right_eq_some, Option.some.injEq] at hstep
    obtain ⟨⟨hat, hless⟩, rfl⟩ := hstep
    exact .fetchAdd hat hless
  | finish index threw =>
    simp only [Heartbeat.step, Option.ite_none_right_eq_some, Option.some.injEq] at hstep
    obtain ⟨⟨htask, hunderWay⟩, rfl⟩ := hstep
    exact .finish index threw htask hunderWay
  | fetchSub index =>
    simp only [Heartbeat.step] at hstep
    split at hstep
    case h_1 threw htask =>
      obtain rfl := Option.some.inj hstep
      exact .fetchSub index threw htask
    case h_2 => cases hstep
  | clock early =>
    simp only [Heartbeat.step, Option.ite_none_right_eq_some, Option.some.injEq] at hstep
    obtain ⟨⟨_, hclock⟩, rfl⟩ := hstep
    exact .clock early hclock
  | load =>
    simp only [Heartbeat.step, Option.ite_none_right_eq_some] at hstep
    obtain ⟨⟨hat, hload⟩, hstep⟩ := hstep
    split at hstep
    case isTrue hzero =>
      obtain rfl := Option.some.inj hstep
      exact .leave hat hload hzero
    case isFalse hcounted =>
      obtain rfl := Option.some.inj hstep
      exact .beat hat hload hcounted
  | program action =>
    simp only [Heartbeat.step, Option.ite_none_right_eq_some, Option.map_eq_some_iff] at hstep
    obtain ⟨hpermits, program, hprogram, rfl⟩ := hstep
    exact .program action program hpermits hprogram

/-- What a task that is counted says of its test. -/
def TaskPhase.Fits (test : TestBase) : TaskPhase → Prop
  | .counted => ∀ threw, .ended threw ∉ test.history
  | .finished _ => .started ∈ test.history ∧ ∀ threw, .ended threw ∉ test.history
  | .out threw => .started ∈ test.history ∧ ∀ other, .ended other ∈ test.history → other = threw

/-- The task of every test has counted itself out. -/
def Heartbeat.AllOut {workers : Nat} (self : Heartbeat workers) : Prop :=
  ∀ index < self.program.tests.length, ∃ threw, self.tasks[index]? = some (.out threw)

/-- One entry more or less that satisfies the condition. -/
theorem countP_set_add {α : Type} (p : α → Bool) {l : List α} {index : Nat} {a b : α}
    (hentry : l[index]? = some a) :
    (l.set index b).countP p + (if p a then 1 else 0) = l.countP p + if p b then 1 else 0 := by
  obtain ⟨hindex, rfl⟩ := List.getElem?_eq_some_iff.mp hentry
  rw [List.countP_set hindex]
  cases ha : p l[index] with
  | true =>
    have hmember : 0 < l.countP p := List.countP_pos_iff.mpr ⟨_, List.getElem_mem hindex, ha⟩
    simp only [if_true]
    omega
  | false => simp

/-- What a step of the pool phase does to a test whose task is counted. -/
theorem TaskPhase.Fits.track {task : TaskPhase} {test : TestBase} (hfits : task.Fits test)
    {workers : Nat} {s : State workers} {action : Action workers} {threw : Bool} {index : Nat}
    (hout : ∀ pool, action = .pool pool → (index ∈ s.testThreadPool.elim 0 fun p => p.ended pool) →
      task = .out threw) : task.Fits (s.track action threw index test) := by
  have hstays {events : List TestEvent} (hevents : ∀ threw, .ended threw ∉ events) :
      task.Fits { test with history := test.history ++ events } := by
    cases task with
    | counted => simpa [Fits, hevents] using hfits
    | finished =>
      obtain ⟨hstarted, hended⟩ := hfits
      simp [Fits, hstarted, hended, hevents]
    | out threw =>
      obtain ⟨hstarted, hended⟩ := hfits
      simpa [Fits, hstarted, hevents] using hended
  unfold State.track
  cases action with
  | pool action =>
    dsimp only
    split
    · unfold TestBase.start
      split
      · exact hstays (by simp)
      · exact hstays (by simp)
    · split
      case isTrue hended =>
        obtain rfl := hout action rfl hended
        obtain ⟨hstarted, hlast⟩ := hfits
        refine ⟨List.mem_append_left _ hstarted, fun other hother => ?_⟩
        obtain hearlier | hnow := List.mem_append.mp hother
        · exact hlast other hearlier
        · simpa using hnow
      case isFalse => exact hfits
  | _ =>
    dsimp only
    split
    · exact hstays (by simp)
    · exact hfits

/-- A test is started by the step of the pool that begins it. -/
theorem State.begun_of_started {workers : Nat} {s : State workers} {action : Action workers}
    {threw : Bool} {index : Nat} {test : TestBase}
    (hstarted : .started ∈ (s.track action threw index test).history) :
    .started ∈ test.history ∨ ∃ step pool, action = .pool step ∧ s.testThreadPool = some pool ∧
      index ∈ pool.begun step := by
  unfold State.track at hstarted
  cases action with
  | pool step =>
    dsimp only at hstarted
    split at hstarted
    case isTrue hbegun =>
      cases hpool : s.testThreadPool with
      | none => simp [hpool] at hbegun
      | some pool =>
        rw [hpool] at hbegun
        exact .inr ⟨step, pool, rfl, rfl, hbegun⟩
    case isFalse =>
      split at hstarted
      · exact .inl (by simpa [TestBase.finish] using hstarted)
      · exact .inl hstarted
  | _ =>
    dsimp only at hstarted
    split at hstarted
    · exact .inl (by simpa [TestBase.destroy] using hstarted)
    · exact .inl hstarted

/-- A task that has counted itself out stays so, and no test is added any more. -/
theorem Heartbeat.AllOut.step {self next : Heartbeat (workerCount ctx.maxThreads)}
    (hall : self.AllOut) (hstartup : self.program.startup = .running)
    {action : HeartbeatAction (workerCount ctx.maxThreads)}
    (hstep : self.step ctx action = some next) :
    next.AllOut ∧ next.program.startup = .running := by
  have hset {index : Nat} {task phase : TaskPhase} (htask : self.tasks[index]? = some task)
      (hinside : task.isOut = false) : { self with tasks := self.tasks.set index phase }.AllOut := by
    intro other hother
    obtain ⟨threw, hout⟩ := hall other hother
    refine ⟨threw, ?_⟩
    rw [List.getElem?_set_ne ?_]
    · exact hout
    · rintro rfl
      rw [htask, Option.some.injEq] at hout
      rw [hout] at hinside
      cases hinside
  cases Heartbeat.move_of_step hstep with
  | fetchAdd hat hless =>
    refine ⟨fun index hindex => ?_, hstartup⟩
    obtain ⟨threw, hout⟩ := hall index hindex
    exact ⟨threw, (List.getElem?_append_left (List.getElem?_eq_some_iff.mp hout).1).trans hout⟩
  | finish index threw htask | fetchSub index threw htask => exact ⟨hset htask rfl, hstartup⟩
  | clock | leave | beat => exact ⟨hall, hstartup⟩
  | program action program _ hprogram =>
    cases action with
    | run action threw =>
      obtain ⟨_, state, _, rfl⟩ := Program.run_eq_some_iff.mp hprogram
      refine ⟨fun index hindex => hall index ?_, hstartup⟩
      simpa using hindex
    | _ => simp [Program.step, hstartup] at hprogram

end lemmas

end spdlogger.main
