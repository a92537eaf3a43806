import Mathlib.Logic.Basic

namespace transition

/-- A transition system whose scheduling and environment choices are all made
by the action, so that one step is a function of the state and the action. -/
structure Machine (State Action : Type*) where
  init : State → Prop
  step : State → Action → Option State

namespace Machine

/-- The state a schedule leads to, when every one of its actions is enabled. -/
def run {State Action : Type*} (M : Machine State Action) : State → List Action → Option State
  | s, [] => some s
  | s, a :: rest => (M.step s a).bind fun next => M.run next rest

/-- A schedule runs part by part. -/
theorem run_append {State Action : Type*} (M : Machine State Action) (s : State)
    (first second : List Action) :
    M.run s (first ++ second) = (M.run s first).bind fun next => M.run next second := by
  induction first generalizing s with
  | nil => rfl
  | cons a rest ih =>
    rw [List.cons_append, Machine.run, Machine.run, Option.bind_assoc]
    simp only [ih]

/-- States reached by steps that all satisfy `ok` in the state they are taken
from. The condition restricts the runs, never the step function. -/
inductive ReachableBy {State Action : Type*} (M : Machine State Action)
    (ok : State → Action → Prop) : State → Prop where
  | init {s : State} (hinit : M.init s) : ReachableBy M ok s
  | step {s next : State} {a : Action} (hreach : ReachableBy M ok s) (hok : ok s a)
      (hstep : M.step s a = some next) : ReachableBy M ok next

/-- States reached by any schedule at all. -/
def Reachable {State Action : Type*} (M : Machine State Action) : State → Prop :=
  M.ReachableBy fun _ _ => True

/-- More is reached under a weaker condition. -/
theorem ReachableBy.mono {State Action : Type*} {M : Machine State Action}
    {ok ok' : State → Action → Prop} (hweaker : ∀ s a, ok s a → ok' s a) {s : State}
    (hreach : M.ReachableBy ok s) : M.ReachableBy ok' s := by
  induction hreach with
  | init hinit => exact .init hinit
  | step _ hok hstep ih => exact .step ih (hweaker _ _ hok) hstep

/-- What is reached by permitted steps is reached. -/
theorem ReachableBy.reachable {State Action : Type*} {M : Machine State Action}
    {ok : State → Action → Prop} {s : State} (hreach : M.ReachableBy ok s) : M.Reachable s :=
  hreach.mono fun _ _ _ => trivial

/-- A predicate that holds initially and survives every permitted step from a
reachable state holds in every state reached by permitted steps. -/
theorem ReachableBy.invariant {State Action : Type*} {M : Machine State Action}
    {ok : State → Action → Prop} {I : State → Prop} (hinit : ∀ s, M.init s → I s)
    (hstep : ∀ s a next, M.ReachableBy ok s → I s → ok s a → M.step s a = some next → I next)
    {s : State} (hreach : M.ReachableBy ok s) : I s := by
  induction hreach with
  | init h => exact hinit _ h
  | step hreach hok h ih => exact hstep _ _ _ hreach ih hok h

/-- The invariant rule for unrestricted runs. -/
theorem Reachable.invariant {State Action : Type*} {M : Machine State Action}
    {I : State → Prop} (hinit : ∀ s, M.init s → I s)
    (hstep : ∀ s a next, I s → M.step s a = some next → I next)
    {s : State} (hreach : M.Reachable s) : I s :=
  ReachableBy.invariant hinit (fun s a next _ hI _ h => hstep s a next hI h) hreach

/-- A step leads from a reached state to another. -/
theorem Reachable.step {State Action : Type*} {M : Machine State Action} {s next : State}
    {a : Action} (hreach : M.Reachable s) (hstep : M.step s a = some next) : M.Reachable next :=
  ReachableBy.step hreach trivial hstep

/-- Every step of a schedule is permitted in the state it is taken from. -/
def RunsBy {State Action : Type*} (M : Machine State Action) (ok : State → Action → Prop) :
    State → List Action → Prop
  | _, [] => True
  | s, a :: rest => ok s a ∧ ∀ next, M.step s a = some next → M.RunsBy ok next rest

/-- A run is permitted if its first step and the rest of it are. -/
theorem runsBy_cons {State Action : Type*} {M : Machine State Action}
    {ok : State → Action → Prop} {s next : State} {a : Action} {rest : List Action}
    (hstep : M.step s a = some next) :
    M.RunsBy ok s (a :: rest) ↔ ok s a ∧ M.RunsBy ok next rest := by
  simp only [RunsBy, hstep, Option.some.injEq, forall_eq']

/-- A permitted run leads from a state reached so to another. -/
theorem ReachableBy.runsBy {State Action : Type*} {M : Machine State Action}
    {ok : State → Action → Prop} {s last : State} {schedule : List Action}
    (hreach : M.ReachableBy ok s) (hok : M.RunsBy ok s schedule)
    (hrun : M.run s schedule = some last) : M.ReachableBy ok last := by
  induction schedule generalizing s with
  | nil =>
    simp only [Machine.run, Option.some.injEq] at hrun
    exact hrun ▸ hreach
  | cons a rest ih =>
    obtain ⟨next, hstep, hrest⟩ := Option.bind_eq_some_iff.mp hrun
    obtain ⟨hpermitted, hlater⟩ := hok
    exact ih (hreach.step hpermitted hstep) (hlater next hstep) hrest

/-- A schedule of actions that are permitted everywhere is a permitted run. -/
theorem RunsBy.of_forall {State Action : Type*} {M : Machine State Action}
    {ok : State → Action → Prop} {schedule : List Action} (hok : ∀ a ∈ schedule, ∀ s, ok s a)
    (s : State) : M.RunsBy ok s schedule := by
  induction schedule generalizing s with
  | nil => trivial
  | cons a rest ih =>
    have hrest := ih fun b hb => hok b (List.mem_cons_of_mem a hb)
    exact ⟨hok a List.mem_cons_self s, fun next _ => hrest next⟩

/-- A run leads from a reached state to another. -/
theorem Reachable.run {State Action : Type*} {M : Machine State Action} {s last : State}
    {schedule : List Action} (hreach : M.Reachable s) (hrun : M.run s schedule = some last) :
    M.Reachable last :=
  hreach.runsBy (RunsBy.of_forall (fun _ _ _ => trivial) s) hrun

/-- A schedule whose last state passes a Boolean check exhibits a reached state
with the checked property. -/
theorem exists_reachableBy_of_run {State Action : Type*} {M : Machine State Action}
    (ok : State → Action → Prop) {s : State} (hinit : M.init s) (schedule : List Action)
    (hok : ∀ a ∈ schedule, ∀ s, ok s a) (check : State → Bool)
    (hrun : (M.run s schedule).any check = true) :
    ∃ last, M.ReachableBy ok last ∧ check last = true := by
  obtain ⟨last, hlast, hcheck⟩ := (Option.any_eq_true _ _).mp hrun
  have hpermitted : M.RunsBy ok s schedule := RunsBy.of_forall hok s
  exact ⟨last, (ReachableBy.init hinit).runsBy hpermitted hlast, hcheck⟩

/-- The same for a schedule without a condition. -/
theorem exists_reachable_of_run {State Action : Type*} {M : Machine State Action} {s : State}
    (hinit : M.init s) (schedule : List Action) (check : State → Bool)
    (hrun : (M.run s schedule).any check = true) :
    ∃ last, M.Reachable last ∧ check last = true :=
  exists_reachableBy_of_run _ hinit schedule (fun _ _ _ => trivial) check hrun

/-- Like `run`, but a step that is not permitted leads nowhere. -/
def runBy {State Action : Type*} (M : Machine State Action) (ok : State → Action → Prop)
    [∀ s a, Decidable (ok s a)] : State → List Action → Option State
  | s, [] => some s
  | s, a :: rest => if ok s a then (M.step s a).bind fun next => M.runBy ok next rest else none

/-- A run with its steps checked leads from a state reached so to another. -/
theorem ReachableBy.runBy {State Action : Type*} {M : Machine State Action}
    {ok : State → Action → Prop} [∀ s a, Decidable (ok s a)] {s last : State}
    {schedule : List Action} (hreach : M.ReachableBy ok s)
    (hrun : M.runBy ok s schedule = some last) : M.ReachableBy ok last := by
  induction schedule generalizing s with
  | nil =>
    simp only [Machine.runBy, Option.some.injEq] at hrun
    exact hrun ▸ hreach
  | cons a rest ih =>
    simp only [Machine.runBy, Option.ite_none_right_eq_some] at hrun
    obtain ⟨hok, hbind⟩ := hrun
    obtain ⟨next, hstep, hrest⟩ := Option.bind_eq_some_iff.mp hbind
    exact ih (hreach.step hok hstep) hrest

/-- A run of checked steps is a run, and its steps are permitted. -/
theorem runsBy_of_runBy {State Action : Type*} {M : Machine State Action}
    {ok : State → Action → Prop} [∀ s a, Decidable (ok s a)] {s last : State}
    {schedule : List Action} (hrun : M.runBy ok s schedule = some last) :
    M.RunsBy ok s schedule ∧ M.run s schedule = some last := by
  induction schedule generalizing s with
  | nil => exact ⟨trivial, hrun⟩
  | cons a rest ih =>
    simp only [Machine.runBy, Option.ite_none_right_eq_some] at hrun
    obtain ⟨hok, hbind⟩ := hrun
    obtain ⟨next, hstep, hrest⟩ := Option.bind_eq_some_iff.mp hbind
    obtain ⟨hlater, hlast⟩ := ih hrest
    refine ⟨(runsBy_cons hstep).mpr ⟨hok, hlater⟩, ?_⟩
    rw [Machine.run, hstep]
    exact hlast

/-- The same where the permission of each step depends on the state it is taken from. -/
theorem exists_reachableBy_of_runBy {State Action : Type*} {M : Machine State Action}
    (ok : State → Action → Prop) [∀ s a, Decidable (ok s a)] {s : State} (hinit : M.init s)
    (schedule : List Action) (check : State → Bool)
    (hrun : (M.runBy ok s schedule).any check = true) :
    ∃ last, M.ReachableBy ok last ∧ check last = true := by
  obtain ⟨last, hlast, hcheck⟩ := (Option.any_eq_true _ _).mp hrun
  exact ⟨last, (ReachableBy.init hinit).runBy hlast, hcheck⟩

/-- What permitted steps from reachable states preserve holds to the end of a run of them. -/
theorem Reachable.preserved {State Action : Type*} {M : Machine State Action}
    {ok : State → Action → Prop} {I : State → Prop}
    (hstep : ∀ s a next, M.Reachable s → I s → ok s a → M.step s a = some next → I next)
    {s last : State} {schedule : List Action} (hreach : M.Reachable s) (h : I s)
    (hok : M.RunsBy ok s schedule) (hrun : M.run s schedule = some last) : I last := by
  induction schedule generalizing s with
  | nil =>
    simp only [Machine.run, Option.some.injEq] at hrun
    exact hrun ▸ h
  | cons a rest ih =>
    obtain ⟨next, hnext, hrest⟩ := Option.bind_eq_some_iff.mp hrun
    obtain ⟨hpermitted, hlater⟩ := hok
    have hholds := hstep s a next hreach h hpermitted hnext
    exact ih (hreach.step hnext) hholds (hlater next hnext) hrest

/-- A trap that no step leaves holds to the end of a run. -/
theorem Reachable.trapped {State Action : Type*} {M : Machine State Action} {I : State → Prop}
    (htrap : ∀ s a next, M.Reachable s → I s → M.step s a = some next → I next)
    {s last : State} {schedule : List Action} (hreach : M.Reachable s) (h : I s)
    (hrun : M.run s schedule = some last) : I last := by
  have hany : M.RunsBy (fun _ _ => True) s schedule := RunsBy.of_forall (fun _ _ _ => trivial) s
  exact hreach.preserved (fun s a next hs hsafe _ => htrap s a next hs hsafe) h hany hrun

/-- Every step of a run that starts inside the trap is taken from inside it. -/
theorem Reachable.runsBy_of_trapped {State Action : Type*} {M : Machine State Action}
    {I : State → Prop} (htrap : ∀ s a next, M.Reachable s → I s → M.step s a = some next → I next)
    {s : State} (hreach : M.Reachable s) (h : I s) (schedule : List Action) :
    M.RunsBy (fun s _ => I s) s schedule := by
  induction schedule generalizing s with
  | nil => trivial
  | cons a rest ih =>
    exact ⟨h, fun next hstep => ih (hreach.step hstep) (htrap s a next hreach h hstep)⟩

/-- What is recorded exactly by the steps that break the condition tells at the end
of a run whether there was one. -/
theorem Reachable.recorded_iff {State Action : Type*} {M : Machine State Action}
    {ok : State → Action → Prop} {record : State → Prop}
    (hstep : ∀ s a next, M.Reachable s → M.step s a = some next →
      (record next ↔ record s ∨ ¬ ok s a))
    {s last : State} {schedule : List Action} (hreach : M.Reachable s)
    (hrun : M.run s schedule = some last) : record last ↔ record s ∨ ¬ M.RunsBy ok s schedule := by
  induction schedule generalizing s with
  | nil =>
    simp only [Machine.run, Option.some.injEq] at hrun
    simp [hrun, RunsBy]
  | cons a rest ih =>
    obtain ⟨next, hnext, hrest⟩ := Option.bind_eq_some_iff.mp hrun
    rw [ih (hreach.step hnext) hrest, hstep s a next hreach hnext, runsBy_cons hnext, not_and_or,
      or_assoc]

/-- Where every step that breaks the condition leads into a trap, and no step
leaves the trap, a run that does not end in the trap takes permitted steps only. -/
theorem Reachable.runsBy_or {State Action : Type*} {M : Machine State Action}
    {ok : State → Action → Prop} {trap : State → Prop}
    (hbreak : ∀ s a next, M.Reachable s → ¬ ok s a → M.step s a = some next → trap next)
    (htrap : ∀ s a next, M.Reachable s → trap s → M.step s a = some next → trap next)
    {s last : State} {schedule : List Action} (hreach : M.Reachable s)
    (hrun : M.run s schedule = some last) : M.RunsBy ok s schedule ∨ trap last := by
  induction schedule generalizing s with
  | nil => exact .inl trivial
  | cons a rest ih =>
    obtain ⟨next, hstep, hrest⟩ := Option.bind_eq_some_iff.mp hrun
    have hnext := hreach.step hstep
    by_cases hok : ok s a
    · exact (ih hnext hrest).imp_left fun hlater => (runsBy_cons hstep).mpr ⟨hok, hlater⟩
    · have htrapped := hbreak s a next hreach hok hstep
      exact .inr (Reachable.trapped htrap hnext htrapped hrest)

/-- The machine with some of its steps taken away. -/
def restrict {State Action : Type*} (M : Machine State Action) (allowed : State → Action → Bool) :
    Machine State Action where
  init := M.init
  step s a := if allowed s a then M.step s a else none

/-- The steps left are those that are allowed. -/
theorem restrict_step_iff {State Action : Type*} {M : Machine State Action}
    {allowed : State → Action → Bool} {s next : State} {a : Action} :
    (M.restrict allowed).step s a = some next ↔ allowed s a = true ∧ M.step s a = some next := by
  unfold restrict
  exact Option.ite_none_right_eq_some

/-- What is reached without the other steps is reached. -/
theorem Reachable.of_restrict {State Action : Type*} {M : Machine State Action}
    {allowed : State → Action → Bool} {s : State} (hreach : (M.restrict allowed).Reachable s) :
    M.Reachable s := by
  induction hreach with
  | init hinit => exact .init hinit
  | step _ _ hstep ih => exact Reachable.step ih (restrict_step_iff.mp hstep).2

/-- Every step of `M` is matched by a schedule of `N` that keeps the states
related. An empty schedule is a stuttering step. -/
structure Simulates {S A T B : Type*} (M : Machine S A) (N : Machine T B)
    (related : S → T → Prop) : Prop where
  init : ∀ s, M.init s → ∃ t, N.init t ∧ related s t
  step : ∀ s a next t, M.Reachable s → related s t → M.step s a = some next →
    ∃ schedule last, N.run t schedule = some last ∧ related next last

/-- Each reached state has a related one that is reached. -/
theorem Simulates.reachable {S A T B : Type*} {M : Machine S A} {N : Machine T B}
    {related : S → T → Prop} (hsim : M.Simulates N related) {s : S} (hreach : M.Reachable s) :
    ∃ t, N.Reachable t ∧ related s t := by
  refine ReachableBy.invariant (I := fun s => ∃ t, N.Reachable t ∧ related s t) ?_ ?_ hreach
  · intro s hinit
    obtain ⟨t, ht, hrelated⟩ := hsim.init s hinit
    exact ⟨t, .init ht, hrelated⟩
  · rintro s a next hs ⟨t, ht, hrelated⟩ _ hstep
    obtain ⟨schedule, last, hrun, hnext⟩ := hsim.step s a next t hs hrelated hstep
    exact ⟨last, ht.run hrun, hnext⟩

/-- `M` is `N` with more in its states and in its actions. -/
structure Extends {S A T B : Type*} (M : Machine S A) (N : Machine T B) (state : S → T)
    (action : A → B) : Prop where
  init : ∀ s, M.init s → N.init (state s)
  step : ∀ s a, (M.step s a).map state = N.step (state s) (action a)

/-- A step is one of the machine below. -/
theorem Extends.step_eq {S A T B : Type*} {M : Machine S A} {N : Machine T B} {state : S → T}
    {action : A → B} (h : M.Extends N state action) {s next : S} {a : A}
    (hstep : M.step s a = some next) : N.step (state s) (action a) = some (state next) := by
  rw [← h.step, hstep, Option.map_some]

/-- A run is one of the machine below. -/
theorem Extends.run_eq {S A T B : Type*} {M : Machine S A} {N : Machine T B} {state : S → T}
    {action : A → B} (h : M.Extends N state action) {s last : S} {schedule : List A}
    (hrun : M.run s schedule = some last) :
    N.run (state s) (schedule.map action) = some (state last) := by
  induction schedule generalizing s with
  | nil =>
    simp only [Machine.run, Option.some.injEq] at hrun
    exact hrun ▸ rfl
  | cons a rest ih =>
    obtain ⟨next, hstep, hrest⟩ := Option.bind_eq_some_iff.mp hrun
    rw [List.map_cons, Machine.run, h.step_eq hstep]
    exact ih hrest

/-- A reached state is one of the machine below. -/
theorem Extends.reachable {S A T B : Type*} {M : Machine S A} {N : Machine T B} {state : S → T}
    {action : A → B} (h : M.Extends N state action) {s : S} (hreach : M.Reachable s) :
    N.Reachable (state s) := by
  induction hreach with
  | init hinit => exact .init (h.init _ hinit)
  | step _ _ hstep ih => exact Reachable.step ih (h.step_eq hstep)

/-- What is permitted in `N` is read off the states and actions of `M`. -/
theorem Extends.runsBy {S A T B : Type*} {M : Machine S A} {N : Machine T B} {state : S → T}
    {action : A → B} (h : M.Extends N state action) {ok : T → B → Prop} {s : S}
    {schedule : List A} (hok : M.RunsBy (fun s a => ok (state s) (action a)) s schedule) :
    N.RunsBy ok (state s) (schedule.map action) := by
  induction schedule generalizing s with
  | nil => trivial
  | cons a rest ih =>
    obtain ⟨hpermitted, hlater⟩ := hok
    refine ⟨hpermitted, fun other hother => ?_⟩
    rw [← h.step] at hother
    obtain ⟨next, hstep, rfl⟩ := Option.map_eq_some_iff.mp hother
    exact ih (hlater next hstep)

end Machine

end transition
