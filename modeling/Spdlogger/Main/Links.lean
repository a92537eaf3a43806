import Spdlogger.Main.Turns
import Spdlogger.ThreadPool.CleanDestruction

namespace spdlogger.thread_pool

variable {maxThreads : Nat} {Tid Fn Exception : Type} [DecidableEq Tid]

/-- No step but a submission looks at the counter. -/
theorem State.step_nextTaskId {s next : State maxThreads Tid Fn Exception}
    {action : Action maxThreads Tid Fn Exception} (id : Int)
    (hcall : ∀ client function, action ≠ .submit client function)
    (hstep : s.step action = some next) :
    State.step { s with nextTaskId := id } action = some { next with nextTaskId := id } := by
  simp only [State.step, Option.ite_none_left_eq_some] at hstep ⊢
  refine ⟨hstep.1, ?_⟩
  replace hstep := hstep.2
  cases action with
  | submit client function => exact absurd rfl (hcall client function)
  | notify client target =>
    simp only [State.notify, Option.ite_none_right_eq_some, Option.some.injEq] at hstep ⊢
    obtain ⟨hnotifies, rfl⟩ := hstep
    exact ⟨hnotifies, rfl⟩
  | wait client =>
    simp only [Option.ite_none_right_eq_some, Option.some.injEq] at hstep ⊢
    obtain ⟨hcalls, rfl⟩ := hstep
    exact ⟨hcalls, rfl⟩
  | testDone client =>
    simp only [State.testDone, Option.ite_none_right_eq_some] at hstep ⊢
    obtain ⟨hwaiting, hstep⟩ := hstep
    refine ⟨hwaiting, ?_⟩
    by_cases hdone : s.allDone = true
    · rw [if_pos hdone] at hstep
      cases hstep
      exact if_pos hdone
    · rw [if_neg hdone] at hstep
      cases hstep
      exact if_neg hdone
  | spuriousDone client =>
    simp only [Option.ite_none_right_eq_some, Option.some.injEq] at hstep ⊢
    obtain ⟨hblocked, rfl⟩ := hstep
    exact ⟨hblocked, rfl⟩
  | workerStep worker =>
    cases hphase : s.workers worker with
    | acquiring =>
      obtain ⟨hstopping, hqueue, rfl⟩ | ⟨hstopping, hqueue, rfl⟩ | ⟨task, rest, hqueue, rfl⟩ :=
        State.acquiring_cases hphase hstep <;>
        simp [State.workerStep, State.setWorker, *]
    | dequeued | caught | retiring =>
      simp only [State.workerStep, hphase, Option.some.injEq] at hstep ⊢
      subst hstep
      rfl
    | blocked | invoking | exited => simp [State.workerStep, hphase] at hstep
  | returns worker | throws worker exception =>
    cases hphase : s.workers worker with
    | invoking task =>
      simp only [State.endTask, hphase, Option.ite_none_right_eq_some, Option.some.injEq] at hstep ⊢
      obtain ⟨hidle, rfl⟩ := hstep
      exact ⟨hidle, rfl⟩
    | _ => simp [State.endTask, hphase] at hstep
  | spuriousWork worker =>
    cases hphase : s.workers worker with
    | blocked =>
      simp only [hphase, Option.some.injEq] at hstep ⊢
      subst hstep
      rfl
    | _ => simp [hphase] at hstep
  | destructorStep =>
    cases hphase : s.destructor with
    | joining index =>
      simp only [State.destructorStep, hphase] at hstep ⊢
      by_cases hlt : index < maxThreads
      · rw [dif_pos hlt] at hstep ⊢
        cases hexited : s.workers ⟨index, hlt⟩ with
        | exited =>
          simp only [hexited, Option.some.injEq] at hstep ⊢
          subst hstep
          rfl
        | _ => simp [hexited] at hstep
      · rw [dif_neg hlt] at hstep ⊢
        cases hstep
        rfl
    | live | stopping | notifying =>
      simp only [State.destructorStep, hphase, Option.some.injEq] at hstep ⊢
      subst hstep
      rfl
    | waiting | destroyed | terminated => simp [State.destructorStep, hphase] at hstep

/-- How a step that is no call of its own moves a client: on from `notifying`, out of
a `wait` whose predicate holds, or inside it. -/
inductive ClientMove (s next : State maxThreads Tid Fn Exception)
    (client : Client Tid maxThreads) : Prop where
  | same (hsame : next.clients client = s.clients client)
  | notified (hbefore : s.clients client = .notifying) (hafter : next.clients client = .idle)
  | passed (hbefore : s.clients client = .waiting) (hdone : s.allDone)
      (hafter : next.clients client = .idle)
  | waits (hbefore : s.clients client = .waiting ∨ s.clients client = .blocked)
      (hafter : next.clients client = .waiting ∨ next.clients client = .blocked)

/-- Moving one client leaves the others. -/
theorem ClientMove.of_setClient {s next : State maxThreads Tid Fn Exception}
    {client : Client Tid maxThreads} (mover : Client Tid maxThreads) (phase : ClientPhase)
    (hclients : next.clients = (s.setClient mover phase).clients)
    (hmover : client = mover → ClientMove s next client) : ClientMove s next client := by
  by_cases hself : client = mover
  · exact hmover hself
  · refine .same ?_
    rw [hclients, State.clients_setClient, Function.update_of_ne hself]

/-- Every move of the pool moves a client like this. -/
theorem ClientMove.of_move {s next : State maxThreads Tid Fn Exception}
    {action : Action maxThreads Tid Fn Exception} {client : Client Tid maxThreads}
    (hother : client ≠ .destructor) (hsubmit : ∀ function, action ≠ .submit client function)
    (hwait : action ≠ .wait client) (hmove : s.Move action next) : ClientMove s next client := by
  cases hmove with
  | submit mover function =>
    refine .of_setClient mover .notifying rfl ?_
    rintro rfl
    exact absurd rfl (hsubmit function)
  | wait mover =>
    refine .of_setClient mover .waiting rfl ?_
    rintro rfl
    exact absurd rfl hwait
  | notify mover target hclient =>
    refine .of_setClient mover .idle rfl ?_
    rintro rfl
    exact .notified hclient (Function.update_self ..)
  | pass mover hclient hdone =>
    refine .of_setClient mover .idle rfl ?_
    rintro rfl
    exact .passed hclient hdone (Function.update_self ..)
  | sleep mover hclient =>
    refine .of_setClient mover .blocked rfl ?_
    rintro rfl
    exact .waits (.inl hclient) (.inr (Function.update_self ..))
  | spuriousDone mover hclient =>
    refine .of_setClient mover .waiting rfl ?_
    rintro rfl
    exact .waits (.inr hclient) (.inl (Function.update_self ..))
  | destruct =>
    refine .of_setClient .destructor .waiting rfl fun hself => ?_
    exact absurd hself hother
  | retire worker task hphase clients hclients =>
    subst hclients
    by_cases hdone : (s.queuedTasks.isEmpty && s.inProgressTasks.erase task.id = ∅) = true
    · cases hclient : s.clients client with
      | blocked =>
        refine .waits (.inr hclient) (.inl ?_)
        show (if _ then _ else _ : Client Tid maxThreads → ClientPhase) client = _
        rw [if_pos hdone, condition_variable.Waiters.notifyAll, hclient]
        rfl
      | idle | notifying | waiting =>
        refine .same ?_
        show (if _ then _ else _ : Client Tid maxThreads → ClientPhase) client = _
        rw [if_pos hdone, condition_variable.Waiters.notifyAll, hclient]
        rfl
    · refine .same ?_
      show (if _ then _ else _ : Client Tid maxThreads → ClientPhase) client = _
      rw [if_neg hdone]
  | block | exit | dequeue | invoke | record | returns | throws | spuriousWork | stop | wake | join
  | destroy => exact .same rfl

/-- A pool whose tasks throw nothing does not terminate the process. -/
theorem State.running_of_reachable [IsEmpty Exception] {s : State maxThreads Tid Fn Exception}
    (hreach : (poolMachine maxThreads Tid Fn Exception).Reachable s) :
    s.destructor ≠ .terminated := by
  refine transition.Machine.Reachable.invariant
    (I := fun s => s.destructor ≠ .terminated) ?_ ?_ hreach
  · rintro s rfl
    simp
  · intro s action next h hstep
    cases (State.move_of_step hstep).2 with
    | pass client hclient hdone destructor hdestructor =>
      have hnone : s.firstException = none := by
        cases hfirst : s.firstException with
        | none => rfl
        | some exception => exact isEmptyElim exception
      subst hdestructor
      by_cases hself : client = .destructor
      · simp [hself, hnone]
      · simpa [hself] using h
    | destruct | stop | wake | join | destroy => simp
    | _ => exact h

end spdlogger.thread_pool

namespace spdlogger.main

variable {workers : Nat} {maxThreads : Option Int} {tests : Nat}

/-- The pool is one that its own machine reaches, but for a number that the `submit`
which failed may have taken. -/
def Genuine (phase : Phase) (pool : thread_pool.State workers Unit Nat Empty) : Prop :=
  ∃ id, (thread_pool.poolMachine workers Unit Nat Empty).Reachable { pool with nextTaskId := id } ∧
    (phase = .destroying true ∨ id = pool.nextTaskId)

/-- How far the loop over the tests has come. -/
def Phase.submitted (tests : Nat) : Phase → Nat
  | .starting index => index
  | _ => tests

/-- Where the main thread is in its bounded pool. -/
def Phase.FitsBounded (pool : thread_pool.State workers Unit Nat Empty) : Phase → Prop
  | .starting _ | .heartbeat | .stopped => pool.destructor = .live ∧
      (pool.clients (.caller ()) = .idle ∨ pool.clients (.caller ()) = .notifying)
  | .waiting => pool.destructor = .live ∧ pool.clients (.caller ()) ≠ .notifying ∧
      (pool.clients (.caller ()) = .idle → pool.Emptied)
  | .clearing => pool.destructor = .live ∧ pool.clients (.caller ()) = .idle ∧ pool.Emptied
  | .destroying _ => pool.destructor ≠ .live ∧ pool.clients (.caller ()) = .idle ∧
      (pool.destructor.hasWaited → pool.Emptied)
  | .constructing | .returned _ | .terminated => False

/-- Where it is in the other one. -/
def Phase.FitsUnlimited (pool : thread_pool.unlimited.State Nat) : Phase → Prop
  | .starting _ | .heartbeat | .stopped => pool.caller = .idle
  | .waiting | .destroying _ => pool.caller = .idle → pool.workerThreads = []
  | .clearing => pool.caller = .idle ∧ pool.workerThreads = []
  | .constructing | .returned _ | .terminated => False

/-- What `main` knows of a pool with a limit. -/
structure BoundedLink (tests : Nat) (phase : Phase)
    (pool : thread_pool.State workers Unit Nat Empty) : Prop where
  genuine : Genuine phase pool
  submitted : pool.submitted.length ≤ phase.submitted tests
  tasks : ∀ worker, pool.clients (.task worker) = .idle
  fits : phase.FitsBounded pool

/-- What `main` knows of a pool without a limit. -/
structure UnlimitedLink (tests : Nat) (phase : Phase) (pool : thread_pool.unlimited.State Nat) :
    Prop where
  reachable : (thread_pool.unlimited.poolMachine Nat Empty).Reachable pool
  submitted : pool.submitted.length ≤ phase.submitted tests
  running : pool.terminated = false
  fits : phase.FitsUnlimited pool

/-- What the main thread knows of its pool. -/
def Pool.Linked (tests : Nat) (phase : Phase) : Pool workers → Prop
  | .bounded pool => BoundedLink tests phase pool
  | .unlimited pool => UnlimitedLink tests phase pool

/-- The phases before the pool is there and after it is gone. -/
def Phase.isOutside : Phase → Bool
  | .constructing | .returned _ | .terminated => true
  | _ => false

/-- What `main` knows of its pool at each of its statements. -/
structure State.Linked (tests : Nat) (s : State workers) : Prop where
  submitted : s.phase.submitted tests ≤ tests
  outside : s.testThreadPool = none → s.phase.isOutside
  pool : ∀ pool, s.testThreadPool = some pool → pool.Linked tests s.phase

section bounded

variable {phase : Phase} {pool next : thread_pool.State workers Unit Nat Empty}

/-- A pool that is reachable is genuine. -/
theorem Genuine.of_reachable (hreach : (thread_pool.poolMachine workers Unit Nat Empty).Reachable pool) :
    Genuine phase pool :=
  ⟨pool.nextTaskId, hreach, .inr rfl⟩

/-- Unless an exception destroys it, a genuine pool is reachable. -/
theorem Genuine.reachable (h : Genuine phase pool) (hphase : phase ≠ .destroying true) :
    (thread_pool.poolMachine workers Unit Nat Empty).Reachable pool := by
  obtain ⟨id, hreach, hid⟩ := h
  rwa [hid.resolve_left hphase] at hreach

/-- The tasks of a genuine pool are settled. -/
theorem Genuine.settled (h : Genuine phase pool) (hcount : pool.submitted.length < 2 ^ 31) :
    pool.Settled := by
  obtain ⟨id, hreach, _⟩ := h
  have haccounts := thread_pool.State.accounts_of_reachable hreach
  have hsettled := haccounts.settled (haccounts.numbered.distinctIds hcount)
  exact ⟨hsettled.inProgress_eq, hsettled.dequeued_eq, hsettled.invoked_eq⟩

/-- The destruction of a genuine pool is orderly. -/
theorem Genuine.orderly (h : Genuine phase pool) : pool.Orderly := by
  obtain ⟨id, hreach, _⟩ := h
  have horderly := thread_pool.State.orderly_of_reachable hreach
  exact ⟨horderly.waits, horderly.stopped, horderly.exited, horderly.joined⟩

/-- No genuine pool terminates the process. -/
theorem Genuine.running (h : Genuine phase pool) : pool.destructor ≠ .terminated := by
  obtain ⟨id, hreach, _⟩ := h
  have hrunning := thread_pool.State.running_of_reachable hreach
  exact hrunning

/-- A step that submits nothing leaves a pool genuine. -/
theorem Genuine.step (h : Genuine phase pool) {action : thread_pool.Action workers Unit Nat Empty}
    (hcall : ∀ client function, action ≠ .submit client function)
    (hstep : pool.step action = some next) : Genuine phase next := by
  obtain ⟨id, hreach, hid⟩ := h
  refine ⟨id, hreach.step (thread_pool.State.step_nextTaskId id hcall hstep), ?_⟩
  refine hid.imp_right fun hsame => hsame.trans ?_
  cases (thread_pool.State.move_of_step hstep).2 with
  | submit client function => exact absurd rfl (hcall client function)
  | _ => rfl

/-- A step of the pool that is no call of the main thread. -/
structure Internal (pool : thread_pool.State workers Unit Nat Empty)
    (action : thread_pool.Action workers Unit Nat Empty) : Prop where
  submit : ∀ client function, action ≠ .submit client function
  wait : ∀ client, action ≠ .wait client
  destructor : action = .destructorStep → pool.destructor ≠ .live

/-- What is internal to the pool is no call of the main thread. -/
theorem Internal.of_isInternal {action : thread_pool.Action workers Unit Nat Empty}
    (h : (PoolAction.bounded action).isInternal (.bounded pool)) : Internal pool action := by
  refine ⟨?_, ?_, ?_⟩
  · rintro client function rfl
    cases h
  · rintro client rfl
    cases h
  · rintro rfl
    simpa [PoolAction.isInternal] using h

/-- `~ThreadPool` neither starts nor goes back by itself. -/
theorem Internal.live_iff {action : thread_pool.Action workers Unit Nat Empty}
    (h : Internal pool action) (horderly : pool.Orderly) (hstep : pool.step action = some next) :
    next.destructor = .live ↔ pool.destructor = .live := by
  cases (thread_pool.State.move_of_step hstep).2 with
  | pass client hclient _ destructor hdestructor =>
    subst hdestructor
    by_cases hself : client = .destructor
    · subst hself
      have hwaiting := horderly.waits.mpr (by simp [hclient])
      rw [hwaiting]
      cases pool.firstException <;> simp
    · simp [hself]
  | destruct hphase => exact absurd hphase (h.destructor rfl)
  | stop hphase | wake hphase | join _ hphase | destroy _ hphase => simp [hphase]
  | _ => exact Iff.rfl

/-- With the main thread and the tasks outside, the pool is released. -/
theorem Internal.released (htasks : ∀ worker, pool.clients (.task worker) = .idle)
    (hcaller : pool.clients (.caller ()) = .idle) : pool.Released :=
  ⟨fun _ => hcaller, fun worker => .inl (htasks worker)⟩

/-- An internal step comes from inside. -/
theorem Internal.fromInside {action : thread_pool.Action workers Unit Nat Empty}
    (h : Internal pool action) : action.FromInside := by
  cases action with
  | submit client function => exact absurd rfl (h.submit client function)
  | wait client => exact absurd rfl (h.wait client)
  | _ => trivial

/-- What the main thread knows survives the steps of the pool. -/
theorem BoundedLink.inside (h : BoundedLink tests phase pool)
    (hcount : pool.submitted.length < 2 ^ 31)
    {action : thread_pool.Action workers Unit Nat Empty} (hinternal : Internal pool action)
    (hstep : pool.step action = some next) : BoundedLink tests phase next := by
  have hmove := (thread_pool.State.move_of_step hstep).2
  have horderly := h.genuine.orderly
  have hlive := hinternal.live_iff horderly hstep
  have hempty (hbefore : pool.Emptied) : next.Emptied := hbefore.step hinternal.submit hstep
  have hclient (client : thread_pool.Client Unit workers) (hother : client ≠ .destructor) :
      thread_pool.ClientMove pool next client :=
    .of_move hother (hinternal.submit client) (hinternal.wait client) hmove
  have hidle {client : thread_pool.Client Unit workers} (hother : client ≠ .destructor)
      (hbefore : pool.clients client = .idle) : next.clients client = .idle := by
    cases hclient client hother with
    | same hsame => exact hsame.trans hbefore
    | notified _ hafter | passed _ _ hafter => exact hafter
    | waits hwaiting => simp [hbefore] at hwaiting
  refine ⟨h.genuine.step hinternal.submit hstep, ?_, fun worker => hidle (by simp) (h.tasks worker),
    ?_⟩
  · have hsame : next.submitted = pool.submitted := by
      cases hmove with
      | submit client function => exact absurd rfl (hinternal.submit client function)
      | _ => rfl
    rw [hsame]
    exact h.submitted
  · have hfits := h.fits
    cases phase with
    | starting | heartbeat | stopped =>
      obtain ⟨hbefore, hcaller⟩ := hfits
      refine ⟨hlive.mpr hbefore, ?_⟩
      cases hclient (.caller ()) (by simp) with
      | same hsame => rwa [hsame]
      | notified _ hafter | passed _ _ hafter => exact .inl hafter
      | waits hwaiting =>
        obtain hcaller | hcaller := hcaller <;> simp [hcaller] at hwaiting
    | waiting =>
      obtain ⟨hbefore, hcaller, hpassed⟩ := hfits
      refine ⟨hlive.mpr hbefore, ?_⟩
      cases hclient (.caller ()) (by simp) with
      | same hsame =>
        rw [hsame]
        exact ⟨hcaller, fun hback => hempty (hpassed hback)⟩
      | notified hnotifying => exact absurd hnotifying hcaller
      | passed _ hdone hafter =>
        have hsettled := h.genuine.settled hcount
        exact ⟨by simp [hafter], fun _ => hempty (hsettled.emptied_of_allDone hdone)⟩
      | waits _ hafter =>
        obtain hafter | hafter := hafter <;> simp [hafter]
    | clearing =>
      obtain ⟨hbefore, hcaller, hemptied⟩ := hfits
      exact ⟨hlive.mpr hbefore, hidle (by simp) hcaller, hempty hemptied⟩
    | destroying unwinding =>
      obtain ⟨hbefore, hcaller, hwaited⟩ := hfits
      refine ⟨fun hafter => hbefore (hlive.mp hafter), hidle (by simp) hcaller, fun hafter => ?_⟩
      cases thread_pool.InsideMove.of_step (Internal.released h.tasks hcaller) horderly.waits
        hinternal.fromInside hstep with
      | passed _ hdone => exact hempty ((h.genuine.settled hcount).emptied_of_allDone hdone)
      | moved hsame => exact hempty (hwaited (hsame ▸ hafter))
    | constructing | returned | terminated => exact hfits

/-- The calls that leave a bounded pool as it is, but for its clients and its destructor. -/
theorem BoundedLink.called {after : Phase} (h : BoundedLink tests phase pool)
    {action : thread_pool.Action workers Unit Nat Empty}
    (hcall : ∀ client function, action ≠ .submit client function)
    (hstep : pool.step action = some next) (hphase : phase ≠ .destroying true)
    (hsubmitted : next.submitted.length ≤ after.submitted tests)
    (htasks : ∀ worker, next.clients (.task worker) = pool.clients (.task worker))
    (hfits : after.FitsBounded next) : BoundedLink tests after next := by
  refine ⟨?_, hsubmitted, fun worker => (htasks worker).trans (h.tasks worker), hfits⟩
  exact .of_reachable ((h.genuine.step hcall hstep).reachable hphase)

/-- A submit takes the loop over the tests one further. -/
theorem BoundedLink.submit {index : Nat} (h : BoundedLink tests (.starting index) pool)
    (hstep : pool.submit (.caller ()) index = some next) :
    BoundedLink tests (.starting (index + 1)) next := by
  have hreach := h.genuine.reachable (by simp)
  have hmachine : (thread_pool.poolMachine workers Unit Nat Empty).step pool
      (.submit (.caller ()) index) = some next := by
    simp only [thread_pool.poolMachine, thread_pool.State.step, if_neg h.genuine.running]
    exact hstep
  simp only [thread_pool.State.submit, Option.ite_none_right_eq_some, Option.some.injEq] at hstep
  obtain ⟨_, rfl⟩ := hstep
  refine ⟨.of_reachable (hreach.step hmachine), ?_, ?_, ?_⟩
  · simpa [Phase.submitted] using h.submitted
  · intro worker
    show (pool.setClient (.caller ()) .notifying).clients (.task worker) = _
    rw [thread_pool.State.clients_setClient, Function.update_of_ne (by simp)]
    exact h.tasks worker
  · refine ⟨h.fits.1, .inr ?_⟩
    show (pool.setClient (.caller ()) .notifying).clients (.caller ()) = _
    rw [thread_pool.State.clients_setClient, Function.update_self]

/-- The call of `wait` brings the main thread inside. -/
theorem BoundedLink.wait (h : BoundedLink tests .stopped pool)
    (hstep : pool.step (.wait (.caller ())) = some next) : BoundedLink tests .waiting next := by
  cases (thread_pool.State.move_of_step hstep).2 with
  | wait _ hmayCall =>
    refine h.called (by simp) hstep (by simp) h.submitted (fun worker => ?_) ⟨h.fits.1, ?_⟩
    · rw [thread_pool.State.clients_setClient, Function.update_of_ne (by simp)]
    · simp

/-- The call of the destructor brings the main thread inside. -/
theorem BoundedLink.destroy {unwinding : Bool} (h : BoundedLink tests phase pool)
    (hphase : phase ≠ .destroying true) (hlive : pool.destructor = .live)
    (hcaller : pool.clients (.caller ()) = .idle)
    (hcount : pool.submitted.length ≤ tests) (hstep : pool.destructorStep = some next) :
    BoundedLink tests (.destroying unwinding) next := by
  have hmachine : pool.step .destructorStep = some next := by
    rw [thread_pool.State.step, if_neg h.genuine.running]
    exact hstep
  simp only [thread_pool.State.destructorStep, hlive, Option.some.injEq] at hstep
  subst hstep
  refine h.called (by simp) hmachine hphase hcount (fun worker => ?_) ⟨by simp, ?_, ?_⟩
  · show (pool.setClient .destructor .waiting).clients (.task worker) = _
    rw [thread_pool.State.clients_setClient, Function.update_of_ne (by simp)]
  · show (pool.setClient .destructor .waiting).clients (.caller ()) = _
    rw [thread_pool.State.clients_setClient, Function.update_of_ne (by simp)]
    exact hcaller
  · simp [thread_pool.DestructorPhase.hasWaited]

/-- A number that nobody will use makes no difference. -/
theorem BoundedLink.skip (h : BoundedLink tests (.destroying true) pool) (id : Int) :
    BoundedLink tests (.destroying true) { pool with nextTaskId := id } := by
  obtain ⟨genuine, hreach, _⟩ := h.genuine
  refine ⟨⟨genuine, hreach, .inl rfl⟩, h.submitted, h.tasks, ?_⟩
  obtain ⟨hlive, hcaller, hwaited⟩ := h.fits
  exact ⟨hlive, hcaller, fun hafter => ⟨(hwaited hafter).queue, (hwaited hafter).held⟩⟩

end bounded

section unlimited

variable {phase : Phase} {pool next : thread_pool.unlimited.State Nat}

/-- A step of the unlimited pool keeps the link. -/
theorem UnlimitedLink.step {after : Phase} (h : UnlimitedLink tests phase pool)
    {action : thread_pool.unlimited.Action Nat Empty} (hstep : pool.step action = some next)
    (hsubmitted : next.submitted.length ≤ after.submitted tests) (hfits : after.FitsUnlimited next) :
    UnlimitedLink tests after next := by
  refine ⟨h.reachable.step hstep, hsubmitted, ?_, hfits⟩
  cases (thread_pool.unlimited.State.move_of_step hstep).2 with
  | throws index exception => exact exception.elim
  | _ => exact h.running

/-- A step of its threads keeps the link. -/
theorem UnlimitedLink.inside (h : UnlimitedLink tests phase pool)
    {action : thread_pool.unlimited.Action Nat Empty} (hsubmit : ∀ test, action ≠ .submit test)
    (hwait : action ≠ .wait) (hstep : pool.step action = some next) :
    UnlimitedLink tests phase next := by
  have hfits := h.fits
  cases (thread_pool.unlimited.State.move_of_step hstep).2 with
  | submit test => exact absurd rfl (hsubmit test)
  | wait => exact absurd rfl hwait
  | throws index exception => exact exception.elim
  | join index thread hcaller | clear index hcaller =>
    refine h.step hstep h.submitted ?_
    cases phase with
    | waiting | destroying unwinding => simp [Phase.FitsUnlimited]
    | starting | heartbeat | stopped =>
      have hidle : pool.caller = .idle := hfits
      rw [hcaller] at hidle
      cases hidle
    | clearing =>
      have hidle : pool.caller = .idle := hfits.1
      rw [hcaller] at hidle
      cases hidle
    | constructing | returned | terminated => exact hfits
  | invoke index thread hthread | returns index thread hthread =>
    refine h.step hstep h.submitted ?_
    have hsome : pool.workerThreads ≠ [] := by
      intro hnil
      simp [hnil] at hthread
    cases phase with
    | waiting | destroying unwinding => exact fun hidle => absurd (hfits hidle) hsome
    | clearing => exact absurd hfits.2 hsome
    | starting | heartbeat | stopped | constructing | returned | terminated => exact hfits

end unlimited

section pool

variable {pool next : Pool workers}

/-- A new pool is linked to the start of the loop. -/
theorem Pool.linked_construct {pool : Pool (workerCount maxThreads)}
    (hpool : construct maxThreads = some pool) : pool.Linked tests (.starting 0) := by
  cases maxThreads with
  | none =>
    cases hpool
    exact ⟨.init rfl, le_rfl, rfl, rfl⟩
  | some limit =>
    simp only [construct, Option.ite_none_left_eq_some, Option.some.injEq] at hpool
    obtain ⟨_, rfl⟩ := hpool
    exact ⟨.of_reachable (.init rfl), le_rfl, fun _ => rfl, rfl, .inl rfl⟩

/-- Outside these phases there is no pool. -/
theorem Pool.not_linked {phase : Phase} (houtside : phase.isOutside) : ¬ pool.Linked tests phase := by
  intro h
  cases pool with
  | bounded pool =>
    have hfits := BoundedLink.fits h
    cases phase with
    | constructing | returned | terminated => exact hfits
    | _ => cases houtside
  | unlimited pool =>
    have hfits := UnlimitedLink.fits h
    cases phase with
    | constructing | returned | terminated => exact hfits
    | _ => cases houtside

/-- The main thread goes on without a call of the pool. -/
theorem Pool.Linked.onward {phase after : Phase} (h : pool.Linked tests phase)
    (hphase : phase ≠ .destroying true) (hsubmitted : phase.submitted tests ≤ after.submitted tests)
    (hbounded : ∀ pool : thread_pool.State workers Unit Nat Empty,
      phase.FitsBounded pool → after.FitsBounded pool)
    (hunlimited : ∀ pool, phase.FitsUnlimited pool → after.FitsUnlimited pool) :
    pool.Linked tests after := by
  cases pool with
  | bounded pool =>
    obtain ⟨hgenuine, hcount, htasks, hfits⟩ := h
    exact ⟨.of_reachable (hgenuine.reachable hphase), hcount.trans hsubmitted, htasks,
      hbounded pool hfits⟩
  | unlimited pool =>
    exact ⟨h.reachable, h.submitted.trans hsubmitted, h.running, hunlimited pool h.fits⟩

/-- A submit takes the loop over the tests one further, in either mode. -/
theorem Pool.Linked.submit {index : Nat} (h : pool.Linked tests (.starting index))
    (hstep : pool.submit index = some next) : next.Linked tests (.starting (index + 1)) := by
  cases pool with
  | bounded pool =>
    obtain ⟨last, hlast, rfl⟩ := Option.map_eq_some_iff.mp hstep
    exact BoundedLink.submit h hlast
  | unlimited pool =>
    obtain ⟨last, hlast, rfl⟩ := Option.map_eq_some_iff.mp hstep
    have hsubmitted := UnlimitedLink.submitted h
    cases (thread_pool.unlimited.State.move_of_step hlast).2 with
    | submit _ hidle =>
      refine UnlimitedLink.step h hlast ?_ hidle
      simpa [Phase.submitted] using hsubmitted

/-- The call of `wait` keeps the link, in either mode. -/
theorem Pool.Linked.wait (h : pool.Linked tests .stopped) (hstep : pool.wait = some next) :
    next.Linked tests .waiting := by
  cases pool with
  | bounded pool =>
    obtain ⟨last, hlast, rfl⟩ := Option.map_eq_some_iff.mp hstep
    exact BoundedLink.wait h hlast
  | unlimited pool =>
    obtain ⟨last, hlast, rfl⟩ := Option.map_eq_some_iff.mp hstep
    have hsubmitted := UnlimitedLink.submitted h
    cases (thread_pool.unlimited.State.move_of_step hlast).2 with
    | wait => exact UnlimitedLink.step h hlast hsubmitted fun hidle => by cases hidle

/-- The return of `wait` keeps the link, in either mode. -/
theorem Pool.Linked.waited (h : pool.Linked tests .waiting) (hwaited : pool.waited) :
    pool.Linked tests .clearing := by
  cases pool with
  | bounded pool =>
    have hidle : pool.clients (.caller ()) = .idle := by simpa [Pool.waited] using hwaited
    obtain ⟨hlive, _, hemptied⟩ := BoundedLink.fits h
    obtain ⟨hgenuine, hsubmitted, htasks, _⟩ := h
    exact ⟨.of_reachable (hgenuine.reachable (by simp)), hsubmitted, htasks, hlive, hidle,
      hemptied hidle⟩
  | unlimited pool =>
    have hidle : pool.caller = .idle := by simpa [Pool.waited] using hwaited
    exact ⟨h.reachable, h.submitted, h.running, hidle, h.fits hidle⟩

/-- The call of the destructor keeps the link, in either mode. -/
theorem Pool.Linked.destroy {phase : Phase} {unwinding : Bool} (h : pool.Linked tests phase)
    (hphase : phase ≠ .destroying true) (hcount : phase.submitted tests ≤ tests)
    (hstep : pool.destroy = some next) : next.Linked tests (.destroying unwinding) := by
  cases pool with
  | bounded pool =>
    simp only [Pool.destroy, Option.ite_none_right_eq_some, Option.map_eq_some_iff] at hstep
    obtain ⟨⟨hlive, hcaller⟩, last, hlast, rfl⟩ := hstep
    exact BoundedLink.destroy h hphase hlive hcaller (h.submitted.trans hcount) hlast
  | unlimited pool =>
    obtain ⟨last, hlast, rfl⟩ := Option.map_eq_some_iff.mp hstep
    have hsubmitted := (UnlimitedLink.submitted h).trans hcount
    cases (thread_pool.unlimited.State.move_of_step hlast).2 with
    | wait => exact UnlimitedLink.step h hlast hsubmitted fun hidle => by cases hidle

/-- A submit that throws leads to the destructor of the pool. -/
theorem Pool.Linked.throws {index : Nat} {numbered : Bool} (h : pool.Linked tests (.starting index))
    (hindex : index < tests) (hstep : (pool.submitThrows numbered).bind Pool.destroy = some next) :
    next.Linked tests (.destroying true) := by
  obtain ⟨middle, hmiddle, hdestroy⟩ := Option.bind_eq_some_iff.mp hstep
  cases pool with
  | bounded pool =>
    simp only [Pool.submitThrows, Option.ite_none_right_eq_some, Option.some.injEq] at hmiddle
    obtain ⟨_, rfl⟩ := hmiddle
    simp only [Pool.destroy, Option.ite_none_right_eq_some, Option.map_eq_some_iff] at hdestroy
    obtain ⟨⟨hlive, hcaller⟩, last, hlast, rfl⟩ := hdestroy
    simp only [thread_pool.State.destructorStep, hlive, Option.some.injEq] at hlast
    subst hlast
    have hlink : BoundedLink tests (.destroying true)
        { pool.setClient .destructor .waiting with destructor := .waiting } := by
      refine BoundedLink.destroy h (by simp) hlive hcaller (h.submitted.trans hindex.le) ?_
      simp [thread_pool.State.destructorStep, hlive]
    exact hlink.skip _
  | unlimited pool =>
    simp only [Pool.submitThrows, Option.ite_none_right_eq_some, Option.some.injEq] at hmiddle
    obtain ⟨_, rfl⟩ := hmiddle
    have hlink : (Pool.unlimited pool : Pool workers).Linked tests (.starting index) := h
    exact hlink.destroy (by simp) hindex.le hdestroy

/-- A step of the pool by itself keeps the link. -/
theorem Pool.Linked.inside {phase : Phase} (h : pool.Linked tests phase)
    (hcount : phase.submitted tests < 2 ^ 31) {action : PoolAction workers}
    (hstep : pool.step action = some next) : next.Linked tests phase := by
  unfold Pool.step at hstep
  rw [Option.ite_none_right_eq_some] at hstep
  obtain ⟨hinternal, hstep⟩ := hstep
  cases pool with
  | bounded pool =>
    cases action with
    | bounded action =>
      obtain ⟨last, hlast, rfl⟩ := Option.map_eq_some_iff.mp hstep
      exact BoundedLink.inside h (h.submitted.trans_lt hcount) (.of_isInternal hinternal) hlast
    | unlimited action => cases hstep
  | unlimited pool =>
    cases action with
    | bounded action => cases hstep
    | unlimited action =>
      obtain ⟨last, hlast, rfl⟩ := Option.map_eq_some_iff.mp hstep
      refine UnlimitedLink.inside h ?_ ?_ hlast
      · rintro test rfl
        cases hinternal
      · rintro rfl
        cases hinternal

end pool

section runs

variable {s : State (workerCount maxThreads)}

omit maxThreads in
/-- With a linked pool, `main` is linked. -/
theorem State.Linked.of_pool {next : State workers} {pool : Pool workers}
    (hpool : next.testThreadPool = some pool) (hsubmitted : next.phase.submitted tests ≤ tests)
    (hlinked : pool.Linked tests next.phase) : next.Linked tests := by
  refine ⟨hsubmitted, by simp [hpool], fun other hother => ?_⟩
  rw [hpool, Option.some.injEq] at hother
  exact hother ▸ hlinked

omit maxThreads in
/-- Inside these phases there is a pool. -/
theorem State.Linked.exists_pool {s : State workers} (h : s.Linked tests)
    (hinside : s.phase.isOutside = false) :
    ∃ pool, s.testThreadPool = some pool ∧ pool.Linked tests s.phase := by
  cases hpool : s.testThreadPool with
  | none =>
    have houtside := h.outside hpool
    rw [hinside] at houtside
    cases houtside
  | some pool => exact ⟨pool, rfl, h.pool pool hpool⟩

omit maxThreads in
/-- Outside these phases there is none. -/
theorem State.Linked.none_of_outside {s : State workers} (h : s.Linked tests)
    (houtside : s.phase.isOutside) : s.testThreadPool = none := by
  refine Option.eq_none_iff_forall_ne_some.mpr fun pool hpool => ?_
  exact Pool.not_linked houtside (h.pool pool hpool)

/-- Below 2 ^ 31 tests no two of them get one number. -/
theorem State.linked_of_reachable (htests : tests < 2 ^ 31)
    (hreach : (mainMachine maxThreads tests).Reachable s) : s.Linked tests := by
  refine transition.Machine.Reachable.invariant (I := State.Linked tests) ?_ ?_ hreach
  · rintro s rfl
    exact ⟨le_rfl, fun _ => rfl, nofun⟩
  · intro s action next h hstep
    cases State.turn_of_step hstep with
    | construct pool _ hpool => exact .of_pool rfl (Nat.zero_le _) (Pool.linked_construct hpool)
    | constructThrows created hphase =>
      refine ⟨?_, ?_, fun pool hpool => ?_⟩
      · dsimp only
        split <;> exact le_rfl
      · dsimp only
        split <;> simp [Phase.isOutside]
      · have hlinked := h.pool pool hpool
        rw [hphase] at hlinked
        exact absurd hlinked (Pool.not_linked rfl)
    | submit index pool last hphase hindex hpool hlast =>
      have hlinked := h.pool pool hpool
      rw [hphase] at hlinked
      exact .of_pool rfl hindex (hlinked.submit hlast)
    | submitThrows numbered index pool last hphase hindex hpool hlast =>
      have hlinked := h.pool pool hpool
      rw [hphase] at hlinked
      exact .of_pool rfl le_rfl (hlinked.throws hindex hlast)
    | started hphase =>
      obtain ⟨pool, hpool, hlinked⟩ := h.exists_pool (by rw [hphase]; rfl)
      rw [hphase] at hlinked
      exact .of_pool hpool le_rfl
        (hlinked.onward (by simp) le_rfl (fun _ hfits => hfits) fun _ hfits => hfits)
    | heartbeat => exact h
    | stop hphase =>
      obtain ⟨pool, hpool, hlinked⟩ := h.exists_pool (by rw [hphase]; rfl)
      rw [hphase] at hlinked
      exact .of_pool hpool le_rfl
        (hlinked.onward (by simp) le_rfl (fun _ hfits => hfits) fun _ hfits => hfits)
    | wait pool last hphase hpool hlast =>
      have hlinked := h.pool pool hpool
      rw [hphase] at hlinked
      exact .of_pool rfl le_rfl (hlinked.wait hlast)
    | waited pool hphase hpool hwaited =>
      have hlinked := h.pool pool hpool
      rw [hphase] at hlinked
      exact .of_pool hpool le_rfl (hlinked.waited hwaited)
    | clear pool last hphase hpool hlast =>
      have hlinked := h.pool pool hpool
      rw [hphase] at hlinked
      exact .of_pool rfl le_rfl (hlinked.destroy (by simp) le_rfl hlast)
    | destroyed => exact ⟨le_rfl, fun _ => rfl, nofun⟩
    | pool action pool last hpool hlast =>
      have hcount := h.submitted.trans_lt htests
      exact .of_pool rfl h.submitted ((h.pool pool hpool).inside hcount hlast)

end runs

end spdlogger.main
