import Spdlogger.Main.Program

namespace spdlogger.main

open spdlogger.test_context (TestContext)

variable {workers : Nat}

/-- The tests that the pool is still to start. -/
def State.upcoming (s : State workers) : Multiset Nat := s.testThreadPool.elim 0 Pool.upcoming

/-- The tests under way. -/
def State.running (s : State workers) : Multiset Nat := s.testThreadPool.elim 0 Pool.running

/-- Where a test stands once it is configured. -/
inductive Stage where
  | configured
  | submitted
  | started
  | ended (threw : Bool)
  deriving DecidableEq, Repr

/-- What has happened to a test at this stage. -/
def Stage.history (logger : Logger) : Stage → List TestEvent
  | .configured | .submitted => [.configured logger]
  | .started => [.configured logger, .started]
  | .ended threw => [.configured logger, .started, .ended threw]

/-- The pool is still to start the test. -/
def Stage.upcoming : Stage → Nat
  | .submitted => 1
  | _ => 0

/-- The test is under way. -/
def Stage.running : Stage → Nat
  | .started => 1
  | _ => 0

/-- The test has been submitted. -/
def Stage.isSubmitted : Stage → Bool
  | .configured => false
  | _ => true

/-- The vector of tests is gone. -/
def Phase.hasDestroyed : Phase → Bool
  | .destroying false | .returned _ => true
  | _ => false

/-- How many tests may have been submitted. -/
def Phase.Allows (tests submitted : Nat) : Phase → Prop
  | .constructing | .terminated => submitted = 0
  | .starting index => submitted = index
  | .destroying true => submitted ≤ tests
  | .returned code => submitted ≤ tests ∧ (code = 0 → submitted = tests)
  | _ => submitted = tests

/-- A test stands at a stage, and the pool has it accordingly. -/
structure Stage.Fits (stage : Stage) (ctx : TestContext) (s : State workers) (submitted index : Nat)
    (test : TestBase) : Prop where
  logger : test.logger_ = some (test.config ctx)
  history : test.history =
    stage.history (test.config ctx) ++ if s.phase.hasDestroyed then [.destroyed] else []
  upcoming : s.upcoming.count index = stage.upcoming
  running : s.running.count index = stage.running
  submitted : stage.isSubmitted ↔ index < submitted

/-- The tests and the pool agree. -/
structure State.Agrees (ctx : TestContext) (s : State workers) (tests : List TestBase)
    (submitted : Nat) : Prop where
  allowed : s.phase.Allows tests.length submitted
  stages : ∀ index test, tests[index]? = some test →
    ∃ stage : Stage, stage.Fits ctx s submitted index test
  beyond : ∀ index, tests.length ≤ index → s.upcoming.count index = 0 ∧ s.running.count index = 0
  idle : s.phase.hasDestroyed → s.upcoming = 0 ∧ s.running = 0

/-- A step that moves no test leaves them all as they are. -/
theorem mapIdx_eq_self {tests : List TestBase} {track : Nat → TestBase → TestBase}
    (htrack : ∀ index test, track index test = test) : tests.mapIdx track = tests := by
  refine List.ext_getElem? fun index => ?_
  rw [List.getElem?_mapIdx]
  cases tests[index]? <;> simp [htrack]

section agrees

variable {ctx : TestContext} {s next : State workers} {tests : List TestBase} {submitted : Nat}

/-- A step that neither moves nor destroys a test. -/
theorem State.Agrees.frame (h : s.Agrees ctx tests submitted)
    (hallowed : next.phase.Allows tests.length submitted) (hupcoming : next.upcoming = s.upcoming)
    (hrunning : next.running = s.running) (hdestroyed : next.phase.hasDestroyed = s.phase.hasDestroyed)
    {track : Nat → TestBase → TestBase} (htrack : ∀ index test, track index test = test) :
    next.Agrees ctx (tests.mapIdx track) submitted := by
  rw [mapIdx_eq_self htrack]
  refine ⟨hallowed, fun index test htest => ?_, fun index hindex => ?_, fun hgone => ?_⟩
  · obtain ⟨stage, hfits⟩ := h.stages index test htest
    refine ⟨stage, hfits.logger, ?_, ?_, ?_, hfits.submitted⟩
    · rw [hdestroyed]
      exact hfits.history
    · rw [hupcoming]
      exact hfits.upcoming
    · rw [hrunning]
      exact hfits.running
  · rw [hupcoming, hrunning]
    exact h.beyond index hindex
  · rw [hupcoming, hrunning]
    exact h.idle (hdestroyed ▸ hgone)

/-- The tests are destroyed while the pool has none of them. -/
theorem State.Agrees.destroys (h : s.Agrees ctx tests submitted)
    (hallowed : next.phase.Allows tests.length submitted) (hbefore : s.phase.hasDestroyed = false)
    (hafter : next.phase.hasDestroyed) (hidle : s.upcoming = 0 ∧ s.running = 0)
    (hstill : next.upcoming = 0 ∧ next.running = 0) {track : Nat → TestBase → TestBase}
    (htrack : ∀ index test, track index test = test.destroy) :
    next.Agrees ctx (tests.mapIdx track) submitted := by
  refine ⟨?_, fun index test htest => ?_, fun index _ => ?_, fun _ => hstill⟩
  · rw [List.length_mapIdx]
    exact hallowed
  · rw [List.getElem?_mapIdx] at htest
    obtain ⟨earlier, hearlier, rfl⟩ := Option.map_eq_some_iff.mp htest
    obtain ⟨stage, hfits⟩ := h.stages index earlier hearlier
    rw [htrack]
    have hupcoming := hfits.upcoming
    have hrunning := hfits.running
    rw [hidle.1] at hupcoming
    rw [hidle.2] at hrunning
    refine ⟨stage, hfits.logger, ?_, ?_, ?_, hfits.submitted⟩
    · have hhistory := hfits.history
      rw [hbefore] at hhistory
      simp only [Bool.false_eq_true, if_false, List.append_nil] at hhistory
      rw [if_pos hafter]
      exact congrArg (· ++ [TestEvent.destroyed]) hhistory
    · rw [hstill.1]
      exact hupcoming
    · rw [hstill.2]
      exact hrunning
  · rw [hstill.1, hstill.2]
    exact ⟨rfl, rfl⟩

/-- The loop over the tests submits the next one. -/
theorem State.Agrees.submits (h : s.Agrees ctx tests submitted) (hsubmitted : submitted < tests.length)
    (hphase : next.phase = .starting (submitted + 1)) (hbefore : s.phase.hasDestroyed = false)
    (hupcoming : next.upcoming = s.upcoming + {submitted}) (hrunning : next.running = s.running)
    {track : Nat → TestBase → TestBase} (htrack : ∀ index test, track index test = test) :
    next.Agrees ctx (tests.mapIdx track) (submitted + 1) := by
  have hafter : next.phase.hasDestroyed = false := by rw [hphase]; rfl
  rw [mapIdx_eq_self htrack]
  refine ⟨by rw [hphase]; rfl, fun index test htest => ?_, fun index hindex => ?_, fun hgone => ?_⟩
  · obtain ⟨stage, hfits⟩ := h.stages index test htest
    have hhistory := hfits.history
    rw [hbefore] at hhistory
    by_cases hself : index = submitted
    · subst hself
      have hconfigured : stage = .configured := by
        cases stage with
        | configured => rfl
        | _ => exact absurd (hfits.submitted.mp rfl) (Nat.lt_irrefl _)
      subst hconfigured
      refine ⟨.submitted, hfits.logger, by rw [hafter]; exact hhistory, ?_, ?_, by simp [Stage.isSubmitted]⟩
      · rw [hupcoming, Multiset.count_add, hfits.upcoming, Multiset.count_singleton_self]
        rfl
      · rw [hrunning]
        exact hfits.running
    · refine ⟨stage, hfits.logger, by rw [hafter]; exact hhistory, ?_, ?_, ?_⟩
      · rw [hupcoming, Multiset.count_add, hfits.upcoming, Multiset.count_singleton, if_neg hself]
        rfl
      · rw [hrunning]
        exact hfits.running
      · rw [hfits.submitted]
        omega
  · obtain ⟨hnone, hidle⟩ := h.beyond index hindex
    rw [hupcoming, hrunning, Multiset.count_add, hnone, Multiset.count_singleton, if_neg (by omega)]
    exact ⟨rfl, hidle⟩
  · rw [hafter] at hgone
    cases hgone

/-- The pool starts the test. -/
theorem Stage.Fits.starts {stage : Stage} {index : Nat} {test : TestBase}
    (hfits : stage.Fits ctx s submitted index test) {begun : Nat} (hbegun : 0 < begun)
    (hupcoming : next.upcoming.count index + begun = s.upcoming.count index)
    (hrunning : next.running.count index = s.running.count index + begun)
    (hphase : next.phase = s.phase) (hstays : s.phase.hasDestroyed = false) :
    Stage.started.Fits ctx next submitted index test.start := by
  rw [hfits.upcoming] at hupcoming
  rw [hfits.running] at hrunning
  have hsubmitted : stage = .submitted := by
    cases stage with
    | submitted => rfl
    | _ =>
      simp only [Stage.upcoming] at hupcoming
      omega
  subst hsubmitted
  simp only [Stage.upcoming, Stage.running] at hupcoming hrunning
  have hstart : test.start = { test with history := test.history ++ [.started] } := by
    simp [TestBase.start, hfits.logger]
  rw [hstart]
  refine ⟨hfits.logger, ?_, ?_, ?_, hfits.submitted⟩
  · have hhistory := hfits.history
    rw [hstays] at hhistory
    rw [hphase, hstays]
    exact congrArg (· ++ [TestEvent.started]) hhistory
  · show next.upcoming.count index = 0
    omega
  · show next.running.count index = 1
    omega

/-- The test is over. -/
theorem Stage.Fits.finishes {stage : Stage} {index : Nat} {test : TestBase}
    (hfits : stage.Fits ctx s submitted index test) {ended : Nat} (hended : 0 < ended)
    (hupcoming : next.upcoming.count index = s.upcoming.count index)
    (hrunning : next.running.count index + ended = s.running.count index)
    (hphase : next.phase = s.phase) (hstays : s.phase.hasDestroyed = false) (threw : Bool) :
    (Stage.ended threw).Fits ctx next submitted index (test.finish threw) := by
  rw [hfits.upcoming] at hupcoming
  rw [hfits.running] at hrunning
  have hstarted : stage = .started := by
    cases stage with
    | started => rfl
    | _ =>
      simp only [Stage.running] at hrunning
      omega
  subst hstarted
  simp only [Stage.running] at hrunning
  refine ⟨hfits.logger, ?_, hupcoming, ?_, hfits.submitted⟩
  · have hhistory := hfits.history
    rw [hstays] at hhistory
    rw [hphase, hstays]
    exact congrArg (· ++ [TestEvent.ended threw]) hhistory
  · show next.running.count index = 0
    omega

/-- The pool starts a test, ends one, or does neither. -/
theorem State.Agrees.runs (h : s.Agrees ctx tests submitted) {begun ended : Multiset Nat}
    (hupcoming : next.upcoming + begun = s.upcoming)
    (hrunning : next.running + ended = s.running + begun) (hone : begun = 0 ∨ ended = 0)
    (hphase : next.phase = s.phase) (threw : Bool) :
    next.Agrees ctx (tests.mapIdx fun index test =>
      if index ∈ begun then test.start else if index ∈ ended then test.finish threw else test)
      submitted := by
  have hgone (hdestroyed : s.phase.hasDestroyed) :
      (next.upcoming = 0 ∧ begun = 0) ∧ next.running = 0 ∧ ended = 0 := by
    obtain ⟨hnone, hidle⟩ := h.idle hdestroyed
    have hbegun := add_eq_zero.mp (hupcoming.trans hnone)
    rw [hidle, hbegun.2] at hrunning
    exact ⟨hbegun, add_eq_zero.mp hrunning⟩
  have hstays (hmoves : begun ≠ 0 ∨ ended ≠ 0) : s.phase.hasDestroyed = false := by
    by_contra hdestroyed
    obtain ⟨⟨_, hbegun⟩, _, hended⟩ := hgone (by simpa using hdestroyed)
    exact hmoves.elim (fun hne => hne hbegun) fun hne => hne hended
  have hupcoming (index : Nat) := congrArg (Multiset.count index) hupcoming
  have hrunning (index : Nat) := congrArg (Multiset.count index) hrunning
  simp only [Multiset.count_add] at hupcoming hrunning
  refine ⟨?_, fun index test htest => ?_, fun index hindex => ?_, fun hdestroyed => ?_⟩
  · rw [hphase, List.length_mapIdx]
    exact h.allowed
  · rw [List.getElem?_mapIdx] at htest
    obtain ⟨earlier, hearlier, rfl⟩ := Option.map_eq_some_iff.mp htest
    obtain ⟨stage, hfits⟩ := h.stages index earlier hearlier
    have hupcoming := hupcoming index
    have hrunning := hrunning index
    by_cases hbegun : index ∈ begun
    · have hnonzero : begun ≠ 0 := by
        rintro rfl
        simp at hbegun
      rw [hone.resolve_left hnonzero, Multiset.count_zero, add_zero] at hrunning
      rw [if_pos hbegun]
      exact ⟨.started, hfits.starts (Multiset.count_pos.mpr hbegun) hupcoming hrunning hphase
        (hstays (.inl hnonzero))⟩
    · rw [Multiset.count_eq_zero.mpr hbegun, add_zero] at hupcoming hrunning
      rw [if_neg hbegun]
      by_cases hended : index ∈ ended
      · have hnonzero : ended ≠ 0 := by
          rintro rfl
          simp at hended
        rw [if_pos hended]
        exact ⟨.ended threw, hfits.finishes (Multiset.count_pos.mpr hended) hupcoming hrunning hphase
          (hstays (.inr hnonzero)) threw⟩
      · rw [Multiset.count_eq_zero.mpr hended, add_zero] at hrunning
        rw [if_neg hended]
        refine ⟨stage, hfits.logger, ?_, hupcoming.trans hfits.upcoming,
          hrunning.trans hfits.running, hfits.submitted⟩
        rw [hphase]
        exact hfits.history
  · obtain ⟨hnone, hidle⟩ := h.beyond index (by simpa using hindex)
    have hupcoming := hupcoming index
    have hrunning := hrunning index
    omega
  · rw [hphase] at hdestroyed
    obtain ⟨⟨hnone, _⟩, hidle, _⟩ := hgone hdestroyed
    exact ⟨hnone, hidle⟩

/-- A test that is not submitted has at most been configured and destroyed. -/
theorem State.Agrees.history_of_le (h : s.Agrees ctx tests submitted) {index : Nat} {test : TestBase}
    (htest : tests[index]? = some test) (hle : submitted ≤ index) : test.history =
      .configured (test.config ctx) :: if s.phase.hasDestroyed then [.destroyed] else [] := by
  obtain ⟨stage, hfits⟩ := h.stages index test htest
  have hconfigured : stage = .configured := by
    cases stage with
    | configured => rfl
    | _ => exact absurd (hfits.submitted.mp rfl) (Nat.not_lt.mpr hle)
  rw [hfits.history, hconfigured]
  rfl

/-- What the pool is to start has been submitted. -/
theorem State.Agrees.lt_of_upcoming (h : s.Agrees ctx tests submitted) {index : Nat} (hindex : index ∈ s.upcoming) :
    index < submitted := by
  have hupcoming := Multiset.count_pos.mpr hindex
  obtain hfar | hnear := Nat.lt_or_ge index tests.length
  · obtain ⟨stage, hfits⟩ := h.stages index _ (List.getElem?_eq_getElem hfar)
    rw [hfits.upcoming] at hupcoming
    refine hfits.submitted.mp ?_
    cases stage with
    | configured => cases hupcoming
    | _ => rfl
  · rw [(h.beyond index hnear).1] at hupcoming
    cases hupcoming

end agrees

end spdlogger.main
