import Spdlogger.ThreadPool.Exceptions
import Spdlogger.ThreadPool.InsideMoves

namespace spdlogger.thread_pool

variable {maxThreads : Nat} {Tid Fn Exception : Type}

/-- The pool is gone: stopped, with every worker joined. -/
structure State.Clean (s : State maxThreads Tid Fn Exception) : Prop where
  destroyed : s.destructor = .destroyed
  stopping : s.stopping
  exited : ∀ worker, s.workers worker = .exited

/-- The destructor is still to find an exception in its `wait`, or has found one. -/
structure State.Doomed (s : State maxThreads Tid Fn Exception) : Prop where
  ahead : s.destructor.hasWaited = false
  thrown : s.destructor = .terminated ∨ ¬ s.Unthrown

variable [DecidableEq Tid]

/-- Ids that are distinct at the end of a run were so at its begin. -/
theorem State.DistinctIds.of_run {s last : State maxThreads Tid Fn Exception}
    {schedule : List (Action maxThreads Tid Fn Exception)} (hlast : last.DistinctIds)
    (hreach : (poolMachine maxThreads Tid Fn Exception).Reachable s)
    (hrun : (poolMachine maxThreads Tid Fn Exception).run s schedule = some last) :
    s.DistinctIds := by
  by_contra hrepeated
  refine hreach.trapped (I := fun s => ¬ s.DistinctIds) ?_ hrepeated hrun hlast
  exact fun s a next _ hrepeated hstep hnext => hrepeated (hnext.of_step hstep)

variable [Fintype Tid]

section runs

variable {s last : State maxThreads Tid Fn Exception}
  {schedule : List (Action maxThreads Tid Fn Exception)}

omit [Fintype Tid] in
/-- A pool that its clients have let go of stays so. -/
theorem State.Released.run (h : s.Released)
    (hreach : (poolMachine maxThreads Tid Fn Exception).Reachable s)
    (hinside : ∀ a ∈ schedule, a.FromInside)
    (hrun : (poolMachine maxThreads Tid Fn Exception).run s schedule = some last) :
    last.Released := by
  have hok : (poolMachine maxThreads Tid Fn Exception).RunsBy (fun _ a => a.FromInside) s schedule :=
    transition.Machine.RunsBy.of_forall (fun a ha _ => hinside a ha) s
  exact hreach.preserved (fun s a next _ hs ha hstep => hs.step ha hstep) h hok hrun

/-- Without an exception, and with none to come, the destructor's `wait` has
nothing to rethrow. -/
theorem State.Unthrown.run (h : s.Unthrown) (hreleased : s.Released)
    (hreach : (poolMachine maxThreads Tid Fn Exception).Reachable s)
    (hrunning : s.destructor ≠ .terminated) (hinside : ∀ a ∈ schedule, a.FromInside)
    (hquiet : ∀ a ∈ schedule, a.isThrow = false)
    (hrun : (poolMachine maxThreads Tid Fn Exception).run s schedule = some last) :
    last.destructor ≠ .terminated := by
  have hok : (poolMachine maxThreads Tid Fn Exception).RunsBy
      (fun _ a => a.FromInside ∧ a.isThrow = false) s schedule :=
    transition.Machine.RunsBy.of_forall (fun a ha _ => ⟨hinside a ha, hquiet a ha⟩) s
  have hlast := hreach.preserved
    (I := fun s => s.Released ∧ s.Unthrown ∧ s.destructor ≠ .terminated) ?_
    ⟨hreleased, h, hrunning⟩ hok hrun
  · exact hlast.2.2
  · rintro s a next hs ⟨hreleased, hunthrown, _⟩ ⟨hinside, hquiet⟩ hstep
    have hwaits := (State.orderly_of_reachable hs).waits
    refine ⟨hreleased.step hinside hstep, ?_⟩
    cases InsideMove.of_step hreleased hwaits hinside hstep with
    | passed _ _ _ hdestructor hfirst hworkers =>
      refine ⟨⟨hfirst, fun worker => hworkers ▸ hunthrown.caught worker⟩, ?_⟩
      rw [hdestructor, hunthrown.first]
      simp
    | moved _ hnext hsame => exact ⟨(hsame hquiet).mpr hunthrown, hnext⟩

/-- Past the `wait` of the destructor no task is left that could throw. -/
theorem State.Released.emptied (h : s.Released)
    (hreach : (poolMachine maxThreads Tid Fn Exception).Reachable s)
    (hahead : s.destructor.hasWaited = false) (hinside : ∀ a ∈ schedule, a.FromInside)
    (hrun : (poolMachine maxThreads Tid Fn Exception).run s schedule = some last)
    (hdistinct : last.DistinctIds) (hwaited : last.destructor.hasWaited) : last.Emptied := by
  have hok : (poolMachine maxThreads Tid Fn Exception).RunsBy (fun _ a => a.FromInside) s schedule :=
    transition.Machine.RunsBy.of_forall (fun a ha _ => hinside a ha) s
  have hlast := hreach.preserved
    (I := fun s => s.Released ∧ (s.DistinctIds → s.destructor.hasWaited → s.Emptied)) ?_
    ⟨h, fun _ hwaited => by simp [hahead] at hwaited⟩ hok hrun
  · exact hlast.2 hdistinct hwaited
  · rintro s a next hs ⟨hreleased, hemptied⟩ hinside hstep
    have hwaits := (State.orderly_of_reachable hs).waits
    refine ⟨hreleased.step hinside hstep, fun hdistinct hwaited => ?_⟩
    have hearlier := hdistinct.of_step hstep
    cases InsideMove.of_step hreleased hwaits hinside hstep with
    | passed _ hdone _ _ _ hworkers hqueue =>
      have hsettled := (State.accounts_of_reachable hs).settled hearlier
      have hempty := hsettled.emptied_of_allDone hdone
      exact ⟨hqueue.trans hempty.queue, fun worker => hworkers ▸ hempty.held worker⟩
    | moved hsame _ _ _ hkept => exact (hkept (hemptied hearlier (hsame ▸ hwaited))).2

/-- An exception that is recorded or on its way reaches the destructor. -/
theorem State.Doomed.run (h : s.Doomed) (hreleased : s.Released)
    (hreach : (poolMachine maxThreads Tid Fn Exception).Reachable s)
    (hinside : ∀ a ∈ schedule, a.FromInside)
    (hrun : (poolMachine maxThreads Tid Fn Exception).run s schedule = some last)
    (hdistinct : last.DistinctIds) : last.Doomed := by
  have hok : (poolMachine maxThreads Tid Fn Exception).RunsBy (fun _ a => a.FromInside) s schedule :=
    transition.Machine.RunsBy.of_forall (fun a ha _ => hinside a ha) s
  have hlast := hreach.preserved (I := fun s => s.Released ∧ (s.DistinctIds → s.Doomed)) ?_
    ⟨hreleased, fun _ => h⟩ hok hrun
  · exact hlast.2 hdistinct
  · rintro s a next hs ⟨hreleased, hdoomed⟩ hinside hstep
    have hwaits := (State.orderly_of_reachable hs).waits
    refine ⟨hreleased.step hinside hstep, fun hdistinct => ?_⟩
    have hearlier := hdistinct.of_step hstep
    have hrunning : s.destructor ≠ .terminated := by
      intro hterminated
      simp [poolMachine, State.step, hterminated] at hstep
    obtain ⟨hahead, hthrown⟩ := hdoomed hearlier
    have hpending := hthrown.resolve_left hrunning
    cases InsideMove.of_step hreleased hwaits hinside hstep with
    | passed _ hdone _ hdestructor =>
      have hsome : s.firstException.isSome := by
        by_contra hnone
        have hsettled := (State.accounts_of_reachable hs).settled hearlier
        have hempty := hsettled.emptied_of_allDone hdone
        refine hpending ⟨by simpa using hnone, fun worker task exception hphase => ?_⟩
        have hheld := hempty.held worker
        simp [hphase] at hheld
      rw [if_pos hsome] at hdestructor
      exact ⟨hdestructor ▸ rfl, .inl hdestructor⟩
    | moved hsame _ hkept hthrows =>
      refine ⟨hsame.trans hahead, .inr ?_⟩
      cases hthrow : a.isThrow with
      | false => exact fun hunthrown => hpending ((hkept hthrow).mp hunthrown)
      | true => exact hthrows hthrow

/-- A task that throws while the destructor is at work dooms it. -/
theorem State.Released.doomed_of_throw (h : s.Released)
    (hreach : (poolMachine maxThreads Tid Fn Exception).Reachable s)
    (hahead : s.destructor.hasWaited = false) (hinside : ∀ a ∈ schedule, a.FromInside)
    (hrun : (poolMachine maxThreads Tid Fn Exception).run s schedule = some last)
    (hdistinct : last.DistinctIds) {a : Action maxThreads Tid Fn Exception} (ha : a ∈ schedule)
    (hthrow : a.isThrow = true) : last.Doomed := by
  obtain ⟨before, after, rfl⟩ := List.append_of_mem ha
  have hbefore : ∀ a ∈ before, a.FromInside := fun a ha => hinside a (List.mem_append_left _ ha)
  have hafter : ∀ a ∈ after, a.FromInside :=
    fun a ha => hinside a (List.mem_append_right _ (List.mem_cons_of_mem _ ha))
  rw [transition.Machine.run_append] at hrun
  obtain ⟨middle, hmiddle, hrest⟩ := Option.bind_eq_some_iff.mp hrun
  obtain ⟨next, hstep, hlater⟩ := Option.bind_eq_some_iff.mp hrest
  have hmiddleReach := hreach.run hmiddle
  have hmiddleDistinct := hdistinct.of_run hmiddleReach hrest
  have hmiddleReleased := h.run hreach hbefore hmiddle
  have hthrowInside := hinside a ha
  have hwaits := (State.orderly_of_reachable hmiddleReach).waits
  have hnext := hmiddleReleased.step hthrowInside hstep
  have hdoomed : next.Doomed := by
    cases InsideMove.of_step hmiddleReleased hwaits hthrowInside hstep with
    | passed hquiet =>
      rw [hthrow] at hquiet
      cases hquiet
    | moved hsame _ _ hthrows hkept =>
      refine ⟨?_, .inr (hthrows hthrow)⟩
      rw [hsame]
      by_contra hwaited
      have hempty := h.emptied hreach hahead hbefore hmiddle hmiddleDistinct (by simpa using hwaited)
      have hquiet := (hkept hempty).1
      rw [hthrow] at hquiet
      cases hquiet
  exact hdoomed.run hnext (hmiddleReach.step hstep) hafter hlater hdistinct

omit [Fintype Tid] in
/-- A pool in which nothing moves any more is at rest, unless the process is gone. -/
theorem State.atRest_of_quiescent {s : State maxThreads Tid Fn Exception}
    (hrest : (poolMachine maxThreads Tid Fn Exception).Quiescent Action.isProgress s)
    (hrunning : s.destructor ≠ .terminated) : s.AtRest := by
  have hstep (action : Action maxThreads Tid Fn Exception) (hprogress : action.isProgress = true) :
      s.step action = none := hrest action hprogress
  simp only [State.step, if_neg hrunning] at hstep
  refine ⟨?_, ?_, ?_, ?_⟩
  · exact fun worker => hstep (.workerStep worker) rfl
  · intro worker task hphase hidle
    have hends := hstep (.returns worker) rfl
    simp [State.endTask, hphase, hidle] at hends
  · exact fun client target => hstep (.notify client target) rfl
  · exact fun client => hstep (.testDone client) rfl

/-- A released pool comes to rest only when the destructor is through with it, or the process is
gone. -/
theorem State.Released.destroyed_or_terminated (h : s.Released) (hpositive : 0 < maxThreads)
    (hreach : (poolMachine maxThreads Tid Fn Exception).Reachable s)
    (hrest : (poolMachine maxThreads Tid Fn Exception).Quiescent Action.isProgress s) :
    s.destructor = .destroyed ∨ s.destructor = .terminated := by
  by_contra hneither
  obtain ⟨hdestroyed, hrunning⟩ := not_or.mp hneither
  have hatRest := State.atRest_of_quiescent hrest hrunning
  have horderly := State.orderly_of_reachable hreach
  have hnowait (worker : Fin maxThreads) : s.clients (.task worker) ≠ .blocked := by
    obtain hidle | hnotifying := h.tasks worker
    · simp [hidle]
    · simp [hnotifying]
  have hstep : s.destructorStep = none := by
    have hnone := hrest .destructorStep rfl
    simpa [poolMachine, State.step, hrunning] using hnone
  cases hphase : s.destructor with
  | live | stopping | notifying => simp [State.destructorStep, hphase] at hstep
  | waiting =>
    -- The workers are asleep with nothing to do, so the last of them has woken the destructor.
    have hactive : s.stopping = false := by
      by_contra hstopping
      have hstopped := horderly.stopped (by simpa using hstopping)
      rw [hphase] at hstopped
      cases hstopped
    exact horderly.waits.mp hphase (hatRest.idle hreach hpositive hnowait hactive .destructor)
  | joining index =>
    simp only [State.destructorStep, hphase] at hstep
    by_cases hlt : index < maxThreads
    · have hwoken := (State.noLostWakeUp_of_reachable hreach).woken (by rw [hphase]; rfl)
        ⟨index, hlt⟩
      have hexited := (hatRest.blocked_or_exited (hnowait ⟨index, hlt⟩)).resolve_left hwoken
      simp [hlt, hexited] at hstep
    · simp [hlt] at hstep
  | destroyed => exact hdestroyed hphase
  | terminated => exact hrunning hphase

/-- Let the destructor of a pool with a worker start when no other thread is in the pool. Its
steps and those of the workers and tasks are bounded, spurious wake-ups and submissions of tasks
apart; and when nothing can move any more, then: if no exception was recorded or on its way and
no task has thrown since, the pool is stopped and every worker joined; and, ids being distinct
below 2 ^ 31 submissions, otherwise it is not. -/
theorem State.clean_destruction_iff (hpositive : 0 < maxThreads)
    (hreach : (poolMachine maxThreads Tid Fn Exception).Reachable s)
    (hlive : s.destructor = .live) (hreleased : s.Released)
    (hinside : ∀ a ∈ schedule, a.FromInside)
    (hrun : (poolMachine maxThreads Tid Fn Exception).run s schedule = some last) :
    schedule.countP Action.isProgress + last.remaining ≤ s.remaining +
        (Fintype.card (Client Tid maxThreads) + 7) * schedule.countP (fun a => !a.isProgress) ∧
      ((poolMachine maxThreads Tid Fn Exception).Quiescent Action.isProgress last →
        (s.Unthrown ∧ (∀ a ∈ schedule, a.isThrow = false) → last.Clean) ∧
        (last.submitted.length < 2 ^ 31 → last.Clean →
          s.Unthrown ∧ ∀ a ∈ schedule, a.isThrow = false)) := by
  refine ⟨usesUp.countP_le hreach hrun, fun hrest => ⟨?_, ?_⟩⟩
  · rintro ⟨hunthrown, hquiet⟩
    have hlastReach := hreach.run hrun
    have hlast := hreleased.run hreach hinside hrun
    have hsafe : last.destructor ≠ .terminated := by
      refine hunthrown.run hreleased hreach ?_ hinside hquiet hrun
      simp [hlive]
    have hdestroyed : last.destructor = .destroyed :=
      (hlast.destroyed_or_terminated hpositive hlastReach hrest).resolve_right hsafe
    refine ⟨hdestroyed, ?_, fun worker => ?_⟩
    · exact (State.noLostWakeUp_of_reachable hlastReach).stop (by rw [hdestroyed]; rfl)
    · exact (State.orderly_of_reachable hlastReach).joined worker (by rw [hdestroyed]; rfl)
  · intro hcount hclean
    have hdistinct := (State.accounts_of_reachable (hreach.run hrun)).numbered.distinctIds hcount
    have hsafe : ¬ last.Doomed := by
      intro hdoomed
      have hahead := hdoomed.ahead
      rw [hclean.destroyed] at hahead
      cases hahead
    constructor
    · by_contra hthrown
      have hdoomed : s.Doomed := ⟨by rw [hlive]; rfl, .inr hthrown⟩
      exact hsafe (hdoomed.run hreleased hreach hinside hrun hdistinct)
    · intro a ha
      by_contra hthrow
      have hahead : s.destructor.hasWaited = false := by rw [hlive]; rfl
      exact hsafe (hreleased.doomed_of_throw hreach hahead hinside hrun hdistinct ha (by simpa using hthrow))

end runs

/-- A pool is destroyed while a worker runs a task that returns. The task before it threw,
and a `wait` has taken its exception along. -/
theorem clean_destruction_during_task :
    ∃ s last : State 1 Unit Unit Nat, (poolMachine 1 Unit Unit Nat).Reachable s ∧
      s.log = [.caught 0 7, .finished 0, .waited (some 7)] ∧ s.inProgressTasks = {1} ∧
      (∃ schedule, (poolMachine 1 Unit Unit Nat).run s schedule = some last) ∧ last.Clean := by
  obtain ⟨s, hreach, hcheck⟩ := transition.Machine.exists_reachable_of_run
    (M := poolMachine 1 Unit Unit Nat) (s := {}) rfl
    [.submit (.caller ()) (), .notify (.caller ()) none, .workerStep 0, .workerStep 0, .throws 0 7,
      .workerStep 0, .workerStep 0, .wait (.caller ()), .testDone (.caller ()),
      .submit (.caller ()) (), .notify (.caller ()) none, .workerStep 0, .workerStep 0]
    (fun s => decide (s.log = [.caught 0 7, .finished 0, .waited (some 7)] ∧
        s.inProgressTasks = {1} ∧ s.destructor = .live ∧ s.firstException = none ∧
        s.workers 0 = .invoking ⟨1, ()⟩ ∧ ∀ client, s.clients client = .idle) &&
      ((poolMachine 1 Unit Unit Nat).run s [.returns 0, .workerStep 0, .destructorStep,
        .testDone .destructor, .destructorStep, .destructorStep, .workerStep 0, .destructorStep,
        .destructorStep]).any fun last : State 1 Unit Unit Nat => decide (last.workers 0 = .exited ∧
          last.destructor = .destroyed ∧ ∀ client, last.clients client = .idle)) (by decide)
  rw [Bool.and_eq_true, decide_eq_true_eq] at hcheck
  obtain ⟨⟨hlog, hprogress, hlive, hfirst, hinvoking, hidle⟩, hcheck⟩ := hcheck
  obtain ⟨last, hrun, hcheck⟩ := (Option.any_eq_true _ _).mp hcheck
  obtain ⟨hexited, hdestroyed, houtside⟩ := of_decide_eq_true hcheck
  have hreleased : s.Released := ⟨fun _ => hidle _, fun _ => .inl (hidle _)⟩
  have hunthrown : s.Unthrown := by
    refine ⟨hfirst, fun worker task exception => ?_⟩
    rw [Subsingleton.elim worker 0, hinvoking]
    nofun
  have hrest : (poolMachine 1 Unit Unit Nat).Quiescent Action.isProgress last := by
    intro action hprogress
    cases action with
    | submit | wait | spuriousDone | spuriousWork => cases hprogress
    | notify client => simp [poolMachine, State.step, State.notify, hdestroyed, houtside]
    | testDone client => simp [poolMachine, State.step, State.testDone, hdestroyed, houtside]
    | workerStep worker | returns worker | throws worker =>
      simp [poolMachine, State.step, State.workerStep, State.endTask, hdestroyed, hexited,
        Subsingleton.elim worker 0]
    | destructorStep => simp [poolMachine, State.step, State.destructorStep, hdestroyed]
  have hclean := (State.clean_destruction_iff Nat.one_pos hreach hlive hreleased
    (by simp [Action.FromInside]) hrun).2 hrest
  exact ⟨s, last, hreach, hlog, hprogress, ⟨_, hrun⟩,
    hclean.1 ⟨hunthrown, by simp [Action.isThrow]⟩⟩

/-- A task has thrown, nobody has called `wait` since, and the `wait` of the
destructor rethrows. -/
theorem exists_terminated_destruction :
    ∃ s : State 1 Unit Unit Unit, (poolMachine 1 Unit Unit Unit).Reachable s ∧
      s.log = [.caught 0 (), .finished 0, .waited (some ())] ∧ s.destructor = .terminated ∧
      s.stopping = false ∧ s.workers 0 ≠ .exited := by
  obtain ⟨s, hreach, hcheck⟩ := transition.Machine.exists_reachable_of_run
    (M := poolMachine 1 Unit Unit Unit) (s := {}) rfl
    [.submit (.caller ()) (), .notify (.caller ()) none, .workerStep 0, .workerStep 0,
      .throws 0 (), .workerStep 0, .workerStep 0, .destructorStep, .testDone .destructor]
    (fun s => s.log = [.caught 0 (), .finished 0, .waited (some ())] ∧ s.destructor = .terminated ∧
      s.stopping = false ∧ s.workers 0 ≠ .exited) (by decide)
  exact ⟨s, hreach, of_decide_eq_true hcheck⟩

end spdlogger.thread_pool
