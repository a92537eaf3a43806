import Spdlogger.Library.Progress
import Spdlogger.ThreadPool.Moves

namespace spdlogger.thread_pool

/-- The members of a pool whose destructors are not trivial. -/
inductive Member where
  | workerThreads
  | mutex
  | workCondition
  | doneCondition
  | queuedTasks
  | inProgressTasks
  | firstException
  deriving DecidableEq, Repr

/-- What an exception that leaves the constructor destroys, the last declared first. -/
def Member.all : List Member :=
  [.firstException, .inProgressTasks, .queuedTasks, .doneCondition, .workCondition, .mutex,
    .workerThreads]

/-- Where the constructor stands. `creating index` is its loop, `unwinding` has yet to
destroy these members, and `undefined` has used a member that is gone or destroyed one
that is in use. -/
inductive ConstructorPhase where
  | reserving
  | creating (index : Nat)
  | constructed
  | unwinding (members : List Member)
  | threw
  | terminated
  | undefined
  deriving DecidableEq, Repr

/-- Nothing runs any more, or nothing is known of what does. -/
def ConstructorPhase.crashed : ConstructorPhase → Bool
  | .terminated | .undefined => true
  | _ => false

/-- Whether the queue that the workers look at is there. -/
def ConstructorPhase.intact : ConstructorPhase → Bool
  | .reserving | .creating _ | .constructed => true
  | .unwinding members => .queuedTasks ∈ members
  | .threw | .terminated | .undefined => false

/-- A pool under construction. `workerThreads` tells of each thread in the vector
whether it is joinable, and `failed`, a history, which creation failed. -/
structure Construction (maxThreads : Nat) (Tid Fn Exception : Type) where
  phase : ConstructorPhase := .reserving
  pool : State maxThreads Tid Fn Exception := {}
  workerThreads : List Bool := []
  failed : Option Nat := none

/-- `fails` is an exception from `reserve` or from the creation of a thread, and
`work` a step of a created worker, which may be a spurious wake-up. -/
inductive ConstructorAction (maxThreads : Nat) where
  | proceed
  | fails
  | destroyMember
  | work (worker : Fin maxThreads) (spurious : Bool)

/-- A step of the thread that constructs the pool. -/
def ConstructorAction.isOwn {maxThreads : Nat} : ConstructorAction maxThreads → Bool
  | .work _ _ => false
  | _ => true

variable {maxThreads : Nat} {Tid Fn Exception : Type}

/-- The step of the pool that a worker takes. -/
def workerAction (worker : Fin maxThreads) (spurious : Bool) :
    Action maxThreads Tid Fn Exception :=
  if spurious then .spuriousWork worker else .workerStep worker

/-- The body of the constructor, as far as nothing fails. -/
def Construction.proceed (s : Construction maxThreads Tid Fn Exception) :
    Option (Construction maxThreads Tid Fn Exception) :=
  match s.phase with
  | .reserving => some { s with phase := .creating 0 }
  | .creating index =>
    if index < maxThreads then
      some { s with phase := .creating (index + 1), workerThreads := s.workerThreads ++ [true] }
    else some { s with phase := .constructed }
  | _ => none

/-- No handler is in the way: the members are destroyed, `~ThreadPool` is not called. -/
def Construction.fails (s : Construction maxThreads Tid Fn Exception) :
    Option (Construction maxThreads Tid Fn Exception) :=
  match s.phase with
  | .reserving => some { s with phase := .unwinding Member.all }
  | .creating index =>
    if index < maxThreads then
      some { s with phase := .unwinding Member.all, failed := some index }
    else none
  | _ => none

/-- The destructor of one member, with the others still to go. -/
def Construction.destroy (s : Construction maxThreads Tid Fn Exception) (others : List Member) :
    Member → ConstructorPhase
  | .workCondition =>
    if ∃ worker, (workCondition Fn Exception).blocked (s.pool.workers worker) = true then .undefined
    else .unwinding others
  | .workerThreads => if true ∈ s.workerThreads then .terminated else .unwinding others
  | _ => .unwinding others

/-- The next member is destroyed; with the last one the constructor is left. -/
def Construction.destroyMember (s : Construction maxThreads Tid Fn Exception) :
    Option (Construction maxThreads Tid Fn Exception) :=
  match s.phase with
  | .unwinding [] => some { s with phase := .threw }
  | .unwinding (member :: others) => some { s with phase := s.destroy others member }
  | _ => none

variable [DecidableEq Tid]

/-- A worker goes on with the members of the pool, whether they are there or not. -/
def Construction.work (s : Construction maxThreads Tid Fn Exception) (worker : Fin maxThreads)
    (spurious : Bool) : Option (Construction maxThreads Tid Fn Exception) :=
  if worker < s.workerThreads.length ∧ s.phase.crashed = false then
    (s.pool.step (workerAction worker spurious)).map fun pool =>
      if s.phase.intact then { s with pool } else { s with phase := .undefined }
  else none

/-- A step of the constructor, or of a worker that it has created. -/
def Construction.step (s : Construction maxThreads Tid Fn Exception) :
    ConstructorAction maxThreads → Option (Construction maxThreads Tid Fn Exception)
  | .proceed => s.proceed
  | .fails => s.fails
  | .destroyMember => s.destroyMember
  | .work worker spurious => s.work worker spurious

/-- The constructor, from its call on. -/
def constructionMachine (maxThreads : Nat) (Tid Fn Exception : Type) [DecidableEq Tid] :
    transition.Machine (Construction maxThreads Tid Fn Exception)
      (ConstructorAction maxThreads) where
  init s := s = {}
  step := Construction.step

/-- Everything that a step of the construction can do. -/
inductive Construction.Move (s : Construction maxThreads Tid Fn Exception) :
    ConstructorAction maxThreads → Construction maxThreads Tid Fn Exception → Prop where
  | reserve (hphase : s.phase = .reserving) : Move s .proceed { s with phase := .creating 0 }
  | create (index : Nat) (hphase : s.phase = .creating index) (hless : index < maxThreads) :
      Move s .proceed
        { s with phase := .creating (index + 1), workerThreads := s.workerThreads ++ [true] }
  | finish (index : Nat) (hphase : s.phase = .creating index) (hall : maxThreads ≤ index) :
      Move s .proceed { s with phase := .constructed }
  | reserveFails (hphase : s.phase = .reserving) :
      Move s .fails { s with phase := .unwinding Member.all }
  | createFails (index : Nat) (hphase : s.phase = .creating index) (hless : index < maxThreads) :
      Move s .fails { s with phase := .unwinding Member.all, failed := some index }
  | leave (hphase : s.phase = .unwinding []) : Move s .destroyMember { s with phase := .threw }
  | destroy (member : Member) (others : List Member)
      (hphase : s.phase = .unwinding (member :: others)) :
      Move s .destroyMember { s with phase := s.destroy others member }
  | work (worker : Fin maxThreads) (spurious : Bool) (pool : State maxThreads Tid Fn Exception)
      (hcreated : worker < s.workerThreads.length) (hintact : s.phase.intact)
      (hstep : s.pool.step (workerAction worker spurious) = some pool) :
      Move s (.work worker spurious) { s with pool }
  | outlive (worker : Fin maxThreads) (spurious : Bool)
      (hcreated : worker < s.workerThreads.length) (hphase : s.phase.crashed = false)
      (hgone : s.phase.intact = false) :
      Move s (.work worker spurious) { s with phase := .undefined }

/-- Every step of the construction is one of its moves. -/
theorem Construction.move_of_step {s next : Construction maxThreads Tid Fn Exception}
    {action : ConstructorAction maxThreads}
    (hstep : (constructionMachine maxThreads Tid Fn Exception).step s action = some next) :
    s.Move action next := by
  change s.step action = some next at hstep
  cases action with
  | proceed =>
    simp only [Construction.step, Construction.proceed] at hstep
    cases hphase : s.phase with
    | reserving =>
      simp only [hphase, Option.some.injEq] at hstep
      exact hstep ▸ .reserve hphase
    | creating index =>
      simp only [hphase] at hstep
      by_cases hless : index < maxThreads
      · rw [if_pos hless, Option.some.injEq] at hstep
        exact hstep ▸ .create index hphase hless
      · rw [if_neg hless, Option.some.injEq] at hstep
        exact hstep ▸ .finish index hphase (Nat.not_lt.mp hless)
    | constructed | unwinding | threw | terminated | undefined => simp [hphase] at hstep
  | fails =>
    simp only [Construction.step, Construction.fails] at hstep
    cases hphase : s.phase with
    | reserving =>
      simp only [hphase, Option.some.injEq] at hstep
      exact hstep ▸ .reserveFails hphase
    | creating index =>
      simp only [hphase, Option.ite_none_right_eq_some, Option.some.injEq] at hstep
      obtain ⟨hless, rfl⟩ := hstep
      exact .createFails index hphase hless
    | constructed | unwinding | threw | terminated | undefined => simp [hphase] at hstep
  | destroyMember =>
    simp only [Construction.step, Construction.destroyMember] at hstep
    cases hphase : s.phase with
    | unwinding members =>
      cases members with
      | nil =>
        simp only [hphase, Option.some.injEq] at hstep
        exact hstep ▸ .leave hphase
      | cons member others =>
        simp only [hphase, Option.some.injEq] at hstep
        exact hstep ▸ .destroy member others hphase
    | reserving | creating | constructed | threw | terminated | undefined =>
      simp [hphase] at hstep
  | work worker spurious =>
    simp only [Construction.step, Construction.work, Option.ite_none_right_eq_some,
      Option.map_eq_some_iff] at hstep
    obtain ⟨⟨hcreated, hphase⟩, pool, hpool, rfl⟩ := hstep
    cases hintact : s.phase.intact with
    | true => exact .work worker spurious pool hcreated hintact hpool
    | false => exact .outlive worker spurious hcreated hphase hintact

/-- What a phase says of the number of threads created and of the creation that failed. -/
def ConstructorPhase.Allows (created : Nat) (failed : Option Nat) : ConstructorPhase → Prop
  | .reserving => created = 0 ∧ failed = none
  | .creating index => created = index ∧ failed = none
  | .constructed => failed = none
  | .unwinding members => created = failed.getD 0 ∧ (created ≠ 0 → .workerThreads ∈ members)
  | .threw => created = 0 ∧ failed.getD 0 = 0
  | .terminated | .undefined => created = failed.getD 0 ∧ created ≠ 0

/-- Nothing joins the threads that are created, and no other thread runs. -/
structure Construction.Sound (s : Construction maxThreads Tid Fn Exception) : Prop where
  phase : s.phase.Allows s.workerThreads.length s.failed
  joinable : ∀ thread ∈ s.workerThreads, thread = true
  idle : ∀ worker : Fin maxThreads, s.workerThreads.length ≤ worker →
    s.pool.workers worker = .acquiring

omit [DecidableEq Tid] in
/-- With a thread left, destroying the members ends before the vector is gone. -/
theorem Construction.Sound.destroy {s : Construction maxThreads Tid Fn Exception} (h : s.Sound)
    {member : Member} {others : List Member} (hphase : s.phase = .unwinding (member :: others)) :
    (s.destroy others member).Allows s.workerThreads.length s.failed := by
  obtain ⟨hallows, hjoinable, hidle⟩ := h
  rw [hphase] at hallows
  obtain ⟨hcreated, hmember⟩ := hallows
  have hkeep (hother : member ≠ .workerThreads) :
      (ConstructorPhase.unwinding others).Allows s.workerThreads.length s.failed := by
    refine ⟨hcreated, fun hsome => ?_⟩
    obtain hhead | htail := List.mem_cons.mp (hmember hsome)
    · exact absurd hhead.symm hother
    · exact htail
  cases member with
  | workCondition =>
    rw [Construction.destroy]
    split
    · rename_i hblocked
      obtain ⟨worker, hworker⟩ := hblocked
      refine ⟨hcreated, fun hnone => ?_⟩
      rw [hidle worker (by omega)] at hworker
      cases hworker
    · exact hkeep nofun
  | workerThreads =>
    rw [Construction.destroy]
    split
    · rename_i hthread
      exact ⟨hcreated, (List.length_pos_of_mem hthread).ne'⟩
    · rename_i hjoined
      refine ⟨hcreated, fun hsome => ?_⟩
      obtain ⟨thread, hthread⟩ := List.exists_mem_of_length_pos (Nat.pos_of_ne_zero hsome)
      exact absurd (hjoinable thread hthread ▸ hthread) hjoined
  | mutex | doneCondition | queuedTasks | inProgressTasks | firstException => exact hkeep nofun

/-- A worker moves nobody but itself. -/
theorem State.workers_of_workerAction {pool next : State maxThreads Tid Fn Exception}
    {worker other : Fin maxThreads} {spurious : Bool}
    (hstep : pool.step (workerAction worker spurious) = some next) (hother : other ≠ worker) :
    next.workers other = pool.workers other := by
  obtain ⟨_, hmove⟩ := State.move_of_step hstep
  cases spurious with
  | false =>
    change pool.Move (.workerStep worker) next at hmove
    cases hmove <;> exact Function.update_of_ne hother ..
  | true =>
    change pool.Move (.spuriousWork worker) next at hmove
    cases hmove
    exact Function.update_of_ne hother ..

/-- Each step keeps the invariant of the construction. -/
theorem Construction.Sound.step {s next : Construction maxThreads Tid Fn Exception}
    {action : ConstructorAction maxThreads} (h : s.Sound)
    (hstep : (constructionMachine maxThreads Tid Fn Exception).step s action = some next) :
    next.Sound := by
  have hallows := h.phase
  cases Construction.move_of_step hstep with
  | reserve hphase =>
    rw [hphase] at hallows
    exact ⟨hallows, h.joinable, h.idle⟩
  | create index hphase hless =>
    rw [hphase] at hallows
    obtain ⟨hcreated, hfailed⟩ := hallows
    refine ⟨⟨by simp [hcreated], hfailed⟩, ?_, fun worker hlater => ?_⟩
    · simpa [or_imp, forall_and] using h.joinable
    · simp only [List.length_append, List.length_singleton] at hlater
      exact h.idle worker (by omega)
  | finish index hphase hall =>
    rw [hphase] at hallows
    exact ⟨hallows.2, h.joinable, h.idle⟩
  | reserveFails hphase =>
    rw [hphase] at hallows
    obtain ⟨hcreated, hfailed⟩ := hallows
    exact ⟨⟨by simp [hcreated, hfailed], fun _ => by decide⟩, h.joinable, h.idle⟩
  | createFails index hphase hless =>
    rw [hphase] at hallows
    exact ⟨⟨hallows.1, fun _ => by decide⟩, h.joinable, h.idle⟩
  | leave hphase =>
    rw [hphase] at hallows
    obtain ⟨hcreated, hmember⟩ := hallows
    have hnone : s.workerThreads.length = 0 := by
      by_contra hsome
      exact List.not_mem_nil (hmember hsome)
    exact ⟨⟨hnone, hcreated ▸ hnone⟩, h.joinable, h.idle⟩
  | destroy member others hphase => exact ⟨h.destroy hphase, h.joinable, h.idle⟩
  | work worker spurious pool hcreated hintact hpool =>
    refine ⟨hallows, h.joinable, fun other hlater => ?_⟩
    have hother : other ≠ worker := by
      rintro rfl
      exact absurd hcreated (Nat.not_lt.mpr hlater)
    rw [State.workers_of_workerAction hpool hother]
    exact h.idle other hlater
  | outlive worker spurious hcreated hphase hgone =>
    have hsome : s.workerThreads.length ≠ 0 := Nat.ne_zero_of_lt hcreated
    refine ⟨⟨?_, hsome⟩, h.joinable, h.idle⟩
    cases hcase : s.phase with
    | unwinding members =>
      rw [hcase] at hallows
      exact hallows.1
    | threw =>
      rw [hcase] at hallows
      exact absurd hallows.1 hsome
    | reserving | creating | constructed => simp [hcase, ConstructorPhase.intact] at hgone
    | terminated | undefined => simp [hcase, ConstructorPhase.crashed] at hphase

/-- The invariant holds in every reachable state of the construction. -/
theorem Construction.sound {s : Construction maxThreads Tid Fn Exception}
    (hreach : (constructionMachine maxThreads Tid Fn Exception).Reachable s) : s.Sound := by
  refine transition.Machine.Reachable.invariant (I := Construction.Sound) ?_ ?_ hreach
  · rintro s rfl
    exact ⟨⟨rfl, rfl⟩, nofun, fun _ _ => rfl⟩
  · exact fun s a next h hstep => h.step hstep

/-- While it is being constructed, a pool goes through nothing but what a constructed
one goes through as well. -/
theorem construction_simulates :
    (constructionMachine maxThreads Tid Fn Exception).Simulates
      (poolMachine maxThreads Tid Fn Exception) (fun s pool => s.pool = pool) where
  init := by
    rintro s rfl
    exact ⟨{}, rfl, rfl⟩
  step := by
    rintro s a next pool _ rfl hstep
    cases Construction.move_of_step hstep with
    | work worker spurious pool hcreated hintact hpool =>
      refine ⟨[workerAction worker spurious], pool, ?_, rfl⟩
      rw [transition.Machine.run]
      exact Option.bind_eq_some_iff.mpr ⟨pool, hpool, rfl⟩
    | reserve | create | finish | reserveFails | createFails | leave | destroy | outlive =>
      exact ⟨[], s.pool, rfl, rfl⟩

/-- A pool under construction is in a state that a pool can reach. -/
theorem Construction.pool_reachable {s : Construction maxThreads Tid Fn Exception}
    (hreach : (constructionMachine maxThreads Tid Fn Exception).Reachable s) :
    (poolMachine maxThreads Tid Fn Exception).Reachable s.pool := by
  obtain ⟨pool, hpool, rfl⟩ := construction_simulates.reachable hreach
  exact hpool

/-- How many steps the constructing thread has at most before it. -/
def ConstructorPhase.remaining (maxThreads : Nat) : ConstructorPhase → Nat
  | .reserving => maxThreads + Member.all.length + 3
  | .creating index => maxThreads - index + Member.all.length + 2
  | .unwinding members => members.length + 1
  | .constructed | .threw | .terminated | .undefined => 0

omit [DecidableEq Tid] in
/-- Destroying a member leaves the others to be destroyed at most. -/
theorem Construction.remaining_destroy (s : Construction maxThreads Tid Fn Exception)
    (member : Member) (others : List Member) :
    (s.destroy others member).remaining maxThreads ≤ others.length + 1 := by
  cases member with
  | workCondition | workerThreads =>
    rw [Construction.destroy]
    split
    · exact Nat.zero_le _
    · exact le_rfl
  | mutex | doneCondition | queuedTasks | inProgressTasks | firstException => exact le_rfl

/-- The steps of the constructing thread use up what remains. -/
theorem construction_usesUp : (constructionMachine maxThreads Tid Fn Exception).UsesUp
    ConstructorAction.isOwn (fun s => s.phase.remaining maxThreads) 0 where
  spends s a next _ hown hstep := by
    cases Construction.move_of_step hstep with
    | reserve hphase =>
      simp only [hphase, ConstructorPhase.remaining]
      omega
    | create index hphase hless =>
      simp only [hphase, ConstructorPhase.remaining]
      omega
    | finish index hphase hall =>
      simp only [hphase, ConstructorPhase.remaining]
      omega
    | reserveFails hphase =>
      simp only [hphase, ConstructorPhase.remaining]
      omega
    | createFails index hphase hless =>
      simp only [hphase, ConstructorPhase.remaining]
      omega
    | leave hphase => simp [hphase, ConstructorPhase.remaining]
    | destroy member others hphase =>
      have hothers := s.remaining_destroy member others
      rw [hphase]
      exact hothers.trans_lt (Nat.lt_succ_self _)
    | work | outlive => cases hown
  replenishes s a next _ hother hstep := by
    cases Construction.move_of_step hstep with
    | reserve | create | finish | reserveFails | createFails | leave | destroy => cases hother
    | work => exact le_rfl
    | outlive => exact Nat.zero_le _

/-- A failed creation stays on record. -/
theorem Construction.failed_of_step {s next : Construction maxThreads Tid Fn Exception}
    {action : ConstructorAction maxThreads} {index : Nat} (h : s.Sound)
    (hstep : (constructionMachine maxThreads Tid Fn Exception).step s action = some next)
    (hfailed : s.failed = some index) : next.failed = some index := by
  cases Construction.move_of_step hstep with
  | createFails other hphase hless =>
    have hallows := h.phase
    rw [hphase] at hallows
    rw [hallows.2] at hfailed
    cases hfailed
  | reserve | create | finish | reserveFails | leave | destroy | work | outlive => exact hfailed

/-- Where the constructor comes to rest after a creation failed: out of it by the
exception if no thread had been created, and with the process gone otherwise. -/
theorem Construction.rest_of_failed {s : Construction maxThreads Tid Fn Exception} {index : Nat}
    (h : s.Sound) (hfailed : s.failed = some index)
    (hrest : (constructionMachine maxThreads Tid Fn Exception).Quiescent
      ConstructorAction.isOwn s) :
    s.phase = .threw ∧ index = 0 ∨ s.phase.crashed = true ∧ index ≠ 0 := by
  have hallows := h.phase
  cases hphase : s.phase with
  | reserving | creating index =>
    rw [hphase, hfailed] at hallows
    exact absurd hallows.2 nofun
  | constructed =>
    rw [hphase, hfailed] at hallows
    cases hallows
  | unwinding members =>
    have hnext := hrest .destroyMember rfl
    change s.destroyMember = none at hnext
    cases members <;> simp [Construction.destroyMember, hphase] at hnext
  | threw =>
    rw [hphase, hfailed] at hallows
    exact .inl ⟨rfl, hallows.2⟩
  | terminated | undefined =>
    rw [hphase, hfailed] at hallows
    obtain ⟨hcreated, hsome⟩ := hallows
    exact .inr ⟨rfl, fun hzero => hsome (hcreated.trans hzero)⟩

variable (Tid Fn Exception) in
/-- The constructor can fail at every index. -/
theorem exists_failed (index : Fin maxThreads) :
    ∃ s, (constructionMachine maxThreads Tid Fn Exception).Reachable s ∧
      s.failed = some index.val := by
  have hcreating (count : Nat) (hle : count ≤ maxThreads) :
      ∃ s, (constructionMachine maxThreads Tid Fn Exception).Reachable s ∧
        s.phase = .creating count := by
    induction count with
    | zero => exact ⟨_, transition.Machine.Reachable.step (a := .proceed) (.init rfl) rfl, rfl⟩
    | succ count ih =>
      obtain ⟨s, hreach, hphase⟩ := ih (Nat.le_of_succ_le hle)
      have hstep : (constructionMachine maxThreads Tid Fn Exception).step s .proceed =
          some { s with
            phase := .creating (count + 1), workerThreads := s.workerThreads ++ [true] } := by
        change s.proceed = _
        simp only [Construction.proceed, hphase, if_pos (Nat.lt_of_succ_le hle)]
      exact ⟨_, hreach.step hstep, rfl⟩
  obtain ⟨s, hreach, hphase⟩ := hcreating index index.isLt.le
  have hstep : (constructionMachine maxThreads Tid Fn Exception).step s .fails =
      some { s with phase := .unwinding Member.all, failed := some index.val } := by
    change s.fails = _
    simp only [Construction.fails, hphase, if_pos index.isLt]
  exact ⟨_, hreach.step hstep, rfl⟩

/-- When the creation of this worker fails, the constructor leaves by the exception,
after boundedly many steps, with the workers before it stopped and joined, and no
thread is destroyed while it is joinable. -/
structure FailsCleanly (Tid Fn Exception : Type) [DecidableEq Tid] {maxThreads : Nat}
    (index : Fin maxThreads) : Prop where
  survives : ∀ s, (constructionMachine maxThreads Tid Fn Exception).Reachable s →
    s.failed = some index.val → s.phase.crashed = false
  bounded : ∀ s, (constructionMachine maxThreads Tid Fn Exception).Reachable s →
    s.failed = some index.val → ∃ bound, ∀ schedule last,
      (constructionMachine maxThreads Tid Fn Exception).run s schedule = some last →
      schedule.countP ConstructorAction.isOwn ≤ bound
  throws : ∀ s, (constructionMachine maxThreads Tid Fn Exception).Reachable s →
    s.failed = some index.val → (constructionMachine maxThreads Tid Fn Exception).Quiescent
      ConstructorAction.isOwn s → s.phase = .threw
  joined : ∀ s, (constructionMachine maxThreads Tid Fn Exception).Reachable s →
    s.failed = some index.val → s.phase = .threw → ∀ worker < index,
      s.pool.workers worker = .exited ∧ s.workerThreads[worker.val]? = some false

variable (Tid Fn Exception) in
/-- With a thread created, the constructor comes to rest by ending the process. -/
theorem exists_crashed {index : Fin maxThreads} (hlater : index.val ≠ 0) :
    ∃ s, (constructionMachine maxThreads Tid Fn Exception).Reachable s ∧
      s.failed = some index.val ∧ s.phase.crashed = true := by
  obtain ⟨s, hreach, hfailed⟩ := exists_failed Tid Fn Exception index
  obtain ⟨schedule, last, _, hrun, hrest⟩ := construction_usesUp.exists_quiescent hreach
  have hstays : last.failed = some index.val :=
    transition.Machine.Reachable.trapped (I := fun s => s.failed = some index.val)
      (fun s a next hs hbefore hstep =>
        Construction.failed_of_step (Construction.sound hs) hstep hbefore) hreach hfailed hrun
  have hlast := hreach.run hrun
  obtain ⟨_, hzero⟩ | ⟨hcrashed, _⟩ :=
    Construction.rest_of_failed (Construction.sound hlast) hstays hrest
  · exact absurd hzero hlater
  · exact ⟨last, hlast, hstays, hcrashed⟩

omit [DecidableEq Tid] in
/-- When the first creation fails, nothing is left to crash. -/
theorem Construction.not_crashed_of_failed {s : Construction maxThreads Tid Fn Exception}
    (h : s.Sound) (hfailed : s.failed = some 0) : s.phase.crashed = false := by
  have hallows := h.phase
  cases hphase : s.phase with
  | terminated | undefined =>
    rw [hphase, hfailed] at hallows
    exact absurd hallows.1 hallows.2
  | reserving | creating | constructed | unwinding | threw => rfl

/-- The constructor is all or nothing only if it is the first worker that fails. -/
theorem failsCleanly_iff (index : Fin maxThreads) :
    FailsCleanly Tid Fn Exception index ↔ index.val = 0 := by
  constructor
  · intro hclean
    by_contra hlater
    obtain ⟨s, hreach, hfailed, hcrashed⟩ := exists_crashed Tid Fn Exception hlater
    have hsurvives := hclean.survives s hreach hfailed
    rw [hcrashed] at hsurvives
    cases hsurvives
  · intro hfirst
    constructor
    · intro s hreach hfailed
      rw [hfirst] at hfailed
      exact Construction.not_crashed_of_failed (Construction.sound hreach) hfailed
    · intro s hreach _
      refine ⟨s.phase.remaining maxThreads, fun schedule last hrun => ?_⟩
      have hbound := construction_usesUp.countP_le hreach hrun
      omega
    · intro s hreach hfailed hrest
      obtain ⟨hthrew, _⟩ | ⟨_, hlater⟩ :=
        Construction.rest_of_failed (Construction.sound hreach) hfailed hrest
      · exact hthrew
      · exact absurd hfirst hlater
    · intro s _ _ _ worker hless
      have hnone := Fin.lt_def.mp hless
      omega

/-- The second of two workers cannot be created: the vector goes with the first one in
it, or the condition variable does while that one is blocked on it. -/
theorem second_worker_fails :
    (∃ s, (constructionMachine 2 Unit Unit Empty).Reachable s ∧
      (s.failed = some 1 ∧ s.phase = .terminated)) ∧
    (∃ s, (constructionMachine 2 Unit Unit Empty).Reachable s ∧
      (s.failed = some 1 ∧ s.phase = .undefined)) ∧
    ¬ FailsCleanly Unit Unit Empty (1 : Fin 2) := by
  have hterminated : ∃ s, (constructionMachine 2 Unit Unit Empty).Reachable s ∧
      (s.failed = some 1 ∧ s.phase = .terminated) := by
    obtain ⟨s, hreach, hcheck⟩ := transition.Machine.exists_reachable_of_run
      (M := constructionMachine 2 Unit Unit Empty) (s := {}) rfl
      (.proceed :: .proceed :: .fails :: List.replicate 7 .destroyMember)
      (fun s => s.failed = some 1 && s.phase = .terminated) (by decide)
    exact ⟨s, hreach, by simpa using hcheck⟩
  refine ⟨hterminated, ?_, fun hclean => ?_⟩
  · obtain ⟨s, hreach, hcheck⟩ := transition.Machine.exists_reachable_of_run
      (M := constructionMachine 2 Unit Unit Empty) (s := {}) rfl
      (.proceed :: .proceed :: .work 0 false :: .fails :: List.replicate 5 .destroyMember)
      (fun s => s.failed = some 1 && s.phase = .undefined) (by decide)
    exact ⟨s, hreach, by simpa using hcheck⟩
  · obtain ⟨s, hreach, hfailed, hphase⟩ := hterminated
    have hsurvives := hclean.survives s hreach hfailed
    rw [hphase] at hsurvives
    cases hsurvives

end spdlogger.thread_pool
