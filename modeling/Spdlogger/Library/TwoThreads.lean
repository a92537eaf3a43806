import Mathlib.Logic.Function.Basic
import Spdlogger.Library.Progress

namespace two_threads

/-- The two threads, in the order in which they are started and joined. -/
inductive Side where
  | first
  | second
  deriving DecidableEq, Repr

/-- The threads as a machine, with the thread that takes an action, and what the function
makes of them behind the joins. -/
structure Bodies (State Inner Result : Type*) where
  machine : transition.Machine State Inner
  side : Inner → Option Side
  exited : State → Side → Bool
  finish : State → Result

/-- Where the function stands. It has `failed` when the second thread could not be started. -/
inductive Phase where
  | starting (side : Side)
  | failed
  | joining (side : Side)
  | joined
  | returned
  | threw
  deriving DecidableEq, Repr

/-- The function with its threads: which of them it has created, and what it returns. -/
structure Run (State Result : Type*) where
  phase : Phase := .starting .first
  created : Side → Bool := fun _ => false
  result : Option Result := none
  threads : State

/-- A step of the function, or one inside a thread. -/
inductive Action (Inner : Type*) where
  | start
  | startThrows
  | join
  | finish
  | thread (action : Inner)

/-- Where the function goes on when a thread is started. -/
def Phase.afterStart : Side → Phase
  | .first => .starting .second
  | .second => .joining .first

/-- Behind a thread that cannot be started. -/
def Phase.afterThrow : Side → Phase
  | .first => .threw
  | .second => .failed

/-- Where the function goes on when a thread is joined. -/
def Phase.afterJoin : Side → Phase
  | .first => .joining .second
  | .second => .joined

variable {State Inner Result : Type*} {B : Bodies State Inner Result}

/-- A step of the function. A start can throw, and a join waits until its thread has exited. -/
def Bodies.step (B : Bodies State Inner Result) (s : Run State Result) :
    Action Inner → Option (Run State Result)
  | .start =>
    match s.phase with
    | .starting side =>
      some { s with phase := .afterStart side, created := Function.update s.created side true }
    | _ => none
  | .startThrows =>
    match s.phase with
    | .starting side => some { s with phase := .afterThrow side }
    | _ => none
  | .join =>
    match s.phase with
    | .joining side =>
      if B.exited s.threads side then some { s with phase := .afterJoin side } else none
    | .failed => if B.exited s.threads .first then some { s with phase := .threw } else none
    | _ => none
  | .finish =>
    match s.phase with
    | .joined => some { s with phase := .returned, result := some (B.finish s.threads) }
    | _ => none
  | .thread action =>
    if (B.side action).all s.created then
      (B.machine.step s.threads action).map fun threads => { s with threads }
    else none

/-- The function, from its call on. -/
def Bodies.runMachine (B : Bodies State Inner Result) :
    transition.Machine (Run State Result) (Action Inner) where
  init s := ∃ threads, B.machine.init threads ∧ s = { threads }
  step := B.step

/-- The function is left, by a return or by an exception. -/
def Run.isOver (s : Run State Result) : Bool := s.phase = .returned ∨ s.phase = .threw

/-- The steps of the function and of its threads. That a thread cannot be started, and what
happens outside, is up to others. -/
def Bodies.isOwn (B : Bodies State Inner Result) : Action Inner → Bool
  | .start | .join | .finish => true
  | .startThrows => false
  | .thread action => (B.side action).isSome

/-- Everything that a step can do. -/
inductive Bodies.Turn (B : Bodies State Inner Result) (s : Run State Result) :
    Action Inner → Run State Result → Prop where
  | start (side : Side) (hphase : s.phase = .starting side) :
    Turn B s .start
      { s with phase := .afterStart side, created := Function.update s.created side true }
  | startThrows (side : Side) (hphase : s.phase = .starting side) :
    Turn B s .startThrows { s with phase := .afterThrow side }
  | join (side : Side) (hphase : s.phase = .joining side)
    (hexited : B.exited s.threads side = true) : Turn B s .join { s with phase := .afterJoin side }
  | rethrow (hphase : s.phase = .failed) (hexited : B.exited s.threads .first = true) :
    Turn B s .join { s with phase := .threw }
  | finish (hphase : s.phase = .joined) :
    Turn B s .finish { s with phase := .returned, result := some (B.finish s.threads) }
  | thread (action : Inner) (threads : State) (hcreated : (B.side action).all s.created = true)
    (hstep : B.machine.step s.threads action = some threads) :
    Turn B s (.thread action) { s with threads }

/-- Each step is one of the turns. -/
theorem Bodies.turn_of_step {s next : Run State Result} {action : Action Inner}
    (hstep : B.step s action = some next) : B.Turn s action next := by
  cases action with
  | start =>
    simp only [Bodies.step] at hstep
    split at hstep
    · rename_i side hphase
      cases hstep
      exact .start side hphase
    · cases hstep
  | startThrows =>
    simp only [Bodies.step] at hstep
    split at hstep
    · rename_i side hphase
      cases hstep
      exact .startThrows side hphase
    · cases hstep
  | join =>
    simp only [Bodies.step] at hstep
    split at hstep
    · rename_i side hphase
      obtain ⟨hexited, hnext⟩ := Option.ite_none_right_eq_some.mp hstep
      cases hnext
      exact .join side hphase hexited
    · rename_i hphase
      obtain ⟨hexited, hnext⟩ := Option.ite_none_right_eq_some.mp hstep
      cases hnext
      exact .rethrow hphase hexited
    · cases hstep
  | finish =>
    simp only [Bodies.step] at hstep
    split at hstep
    · rename_i hphase
      cases hstep
      exact .finish hphase
    · cases hstep
  | thread action =>
    simp only [Bodies.step, Option.ite_none_right_eq_some, Option.map_eq_some_iff] at hstep
    obtain ⟨hcreated, threads, hthreads, rfl⟩ := hstep
    exact .thread action threads hcreated hthreads

/-- What the function relies on. A thread that is `fresh` has not done anything yet, and
once the threads are `told` to stop they come to their ends. -/
structure Bodies.Lawful (B : Bodies State Inner Result) (fresh : State → Side → Prop)
    (told : State → Prop) (remaining : State → Nat) : Prop where
  fresh_init : ∀ s side, B.machine.init s → fresh s side
  fresh_step : ∀ s action next side, fresh s side → B.side action ≠ some side →
    B.machine.step s action = some next → fresh next side
  exited_step : ∀ s action next side, B.exited s side = true → B.side action ≠ some side →
    B.machine.step s action = some next → B.exited next side = true
  stuck : ∀ s action side, B.exited s side = true → B.side action = some side →
    B.machine.step s action = none
  finish_step : ∀ s action next, B.side action = none → B.machine.step s action = some next →
    B.finish next = B.finish s
  goes : ∀ s side, B.machine.Reachable s → B.exited s side = false → ∃ action mover,
    B.side action = some mover ∧ (mover = side ∨ ¬ fresh s mover) ∧
      B.machine.step s action ≠ none
  told_step : ∀ s action next, told s → B.machine.step s action = some next → told next
  spends : ∀ s action next, B.machine.Reachable s → told s → (B.side action).isSome = true →
    B.machine.step s action = some next → remaining next < remaining s
  keeps : ∀ s action next, B.side action = none → B.machine.step s action = some next →
    remaining next ≤ remaining s

/-- The threads that have been joined, of those that have been started. -/
def Phase.hasJoined : Phase → Side → Bool
  | .starting _, _ | .failed, _ | .joining .first, _ => false
  | .joining .second, side => side = .first
  | .joined, _ | .returned, _ | .threw, _ => true

/-- The threads that have been started. One that threw may have started the first. -/
def Phase.hasStarted : Phase → Side → Bool
  | .starting .first, _ => false
  | .starting .second, side | .failed, side | .threw, side => side = .first
  | .joining _, _ | .joined, _ | .returned, _ => true

/-- The steps that the function itself has yet to take at most. -/
def Phase.stepsLeft : Phase → Nat
  | .starting .first => 5
  | .starting .second => 4
  | .joining .first => 3
  | .joining .second => 2
  | .failed | .joined => 1
  | .returned | .threw => 0

/-- The function has five steps at most. -/
theorem Phase.stepsLeft_le (phase : Phase) : phase.stepsLeft ≤ 5 := by
  cases phase with
  | starting side | joining side => cases side <;> simp [Phase.stepsLeft]
  | _ => simp [Phase.stepsLeft]

/-- The function knows its threads. -/
structure Run.Sound (B : Bodies State Inner Result) (fresh : State → Side → Prop)
    (s : Run State Result) : Prop where
  reachable : B.machine.Reachable s.threads
  fresh : ∀ side, s.created side = false → fresh s.threads side
  created : ∀ side, s.created side = s.phase.hasStarted side ∨
    s.phase = .threw ∧ s.created side = false
  joined : ∀ side, s.created side = true → s.phase.hasJoined side = true →
    B.exited s.threads side = true
  result : ∀ result, s.result = some result → s.phase = .returned ∧ result = B.finish s.threads

variable {fresh : State → Side → Prop} {told : State → Prop} {remaining : State → Nat}
  {s next : Run State Result}

/-- Nobody else moves a thread that is not there. -/
theorem Bodies.side_ne_of_all {created : Side → Bool} {action : Inner} {side : Side}
    (hall : (B.side action).all created = true) (hside : created side = false) :
    B.side action ≠ some side := by
  intro hsame
  rw [hsame, Option.all_some, hside] at hall
  cases hall

/-- Each turn keeps the function and its threads in agreement. -/
theorem Run.Sound.turn (hB : B.Lawful fresh told remaining) (h : s.Sound B fresh)
    {action : Action Inner} (hturn : B.Turn s action next) : next.Sound B fresh := by
  have hnone (hphase : s.phase ≠ .returned) : s.result = none :=
    Option.eq_none_iff_forall_ne_some.mpr fun result hresult => hphase (h.result result hresult).1
  cases hturn with
  | start side hphase =>
    have hbefore := h.created
    rw [hphase] at hbefore
    refine ⟨h.reachable, fun other hother => ?_, fun other => .inl ?_, fun other _ hjoined => ?_, ?_⟩
    · dsimp only at hother
      by_cases hsame : other = side
      · simp [hsame] at hother
      · rw [Function.update_of_ne hsame] at hother
        exact h.fresh other hother
    · have hcreated := (hbefore other).resolve_right (by simp)
      cases side <;> cases other <;>
        simp_all [Function.update, Phase.afterStart, Phase.hasStarted]
    · cases side <;> cases hjoined
    · simp [hnone (by simp [hphase])]
  | startThrows side hphase =>
    have hbefore := h.created
    rw [hphase] at hbefore
    refine ⟨h.reachable, h.fresh, fun other => ?_, fun other hother hjoined => ?_, ?_⟩
    · have hcreated := (hbefore other).resolve_right (by simp)
      cases side with
      | first => exact .inr ⟨rfl, hcreated⟩
      | second => exact .inl hcreated
    · have hcreated := (hbefore other).resolve_right (by simp)
      cases side with
      | first =>
        rw [hother] at hcreated
        cases hcreated
      | second => cases hjoined
    · simp [hnone (by simp [hphase])]
  | join side hphase hexited =>
    have hbefore := h.created
    have hjoinedBefore := h.joined
    rw [hphase] at hbefore hjoinedBefore
    refine ⟨h.reachable, h.fresh, fun other => .inl ?_, fun other hother hjoined => ?_, ?_⟩
    · have hcreated := (hbefore other).resolve_right (by simp)
      cases side <;> exact hcreated
    · by_cases hsame : other = side
      · exact hsame ▸ hexited
      · refine hjoinedBefore other hother ?_
        cases side <;> cases other <;> simp_all [Phase.afterJoin, Phase.hasJoined]
    · simp [hnone (by simp [hphase])]
  | rethrow hphase hexited =>
    have hbefore := h.created
    rw [hphase] at hbefore
    refine ⟨h.reachable, h.fresh, fun other => ?_, fun other hother _ => ?_, ?_⟩
    · exact .inl ((hbefore other).resolve_right (by simp))
    · have hcreated := (hbefore other).resolve_right (by simp)
      have hfirst : other = .first := by
        rw [hother] at hcreated
        simpa [Phase.hasStarted] using hcreated
      exact hfirst ▸ hexited
    · simp [hnone (by simp [hphase])]
  | finish hphase =>
    have hbefore := h.created
    rw [hphase] at hbefore
    refine ⟨h.reachable, h.fresh, fun other => .inl ?_, fun other hother _ => ?_, ?_⟩
    · exact (hbefore other).resolve_right (by simp)
    · exact h.joined other hother (by rw [hphase]; rfl)
    · rintro result ⟨⟩
      exact ⟨rfl, rfl⟩
  | thread action threads hcreated hstep =>
    refine ⟨h.reachable.step hstep, fun side hside => ?_, h.created, fun side hside hjoined => ?_,
      fun result hresult => ?_⟩
    · exact hB.fresh_step _ _ _ side (h.fresh side hside) (Bodies.side_ne_of_all hcreated hside) hstep
    · have hexited := h.joined side hside hjoined
      refine hB.exited_step _ _ _ side hexited (fun hmoves => ?_) hstep
      rw [hB.stuck _ _ side hexited hmoves] at hstep
      cases hstep
    · obtain ⟨hphase, hsame⟩ := h.result result hresult
      refine ⟨hphase, ?_⟩
      rw [hsame, hB.finish_step _ _ _ ?_ hstep]
      -- both threads are gone
      cases hside : B.side action with
      | none => rfl
      | some side =>
        have hthere : s.created side = true := by simpa [hside] using hcreated
        have hexited := h.joined side hthere (by rw [hphase]; rfl)
        rw [hB.stuck _ _ side hexited hside] at hstep
        cases hstep

/-- The function and its threads agree at any time. -/
theorem Run.sound_of_reachable (hB : B.Lawful fresh told remaining)
    (hreach : B.runMachine.Reachable s) : s.Sound B fresh := by
  refine transition.Machine.Reachable.invariant (I := fun s => s.Sound B fresh) ?_ ?_ hreach
  · rintro s ⟨threads, hinit, rfl⟩
    exact ⟨.init hinit, fun side _ => hB.fresh_init threads side hinit, fun _ => .inl rfl,
      by simp, by simp⟩
  · exact fun s action next h hstep => h.turn hB (Bodies.turn_of_step hstep)

/-- When the function is over, so are the threads that it has started. -/
theorem Run.exited_of_isOver (hB : B.Lawful fresh told remaining)
    (hreach : B.runMachine.Reachable s) (hover : s.isOver = true) {side : Side}
    (hcreated : s.created side = true) : B.exited s.threads side = true := by
  refine (Run.sound_of_reachable hB hreach).joined side hcreated ?_
  simp only [Run.isOver, decide_eq_true_eq] at hover
  obtain hphase | hphase := hover <;> rw [hphase] <;> rfl

/-- A function that returns has been told to, if its first thread does not leave by itself. -/
theorem Run.told_of_returned (hB : B.Lawful fresh told remaining)
    (hleaves : ∀ s, B.machine.Reachable s → B.exited s .first = true → told s)
    (hreach : B.runMachine.Reachable s) (hphase : s.phase = .returned) : told s.threads := by
  have h := Run.sound_of_reachable hB hreach
  have hcreated := (h.created .first).resolve_right (by simp [hphase])
  rw [hphase] at hcreated
  exact hleaves s.threads h.reachable (h.joined .first hcreated (by rw [hphase]; rfl))

/-- The function can go on until it is over. -/
theorem Run.isOver_of_quiescent (hB : B.Lawful fresh told remaining)
    (hreach : B.runMachine.Reachable s) (hrest : B.runMachine.Quiescent B.isOwn s) :
    s.isOver = true := by
  have h := Run.sound_of_reachable hB hreach
  have hexited (side : Side) (hcreated : s.created side = true) : B.exited s.threads side = true := by
    by_contra hnot
    obtain ⟨action, mover, hmover, hthere, henabled⟩ :=
      hB.goes s.threads side h.reachable (by simpa using hnot)
    have hmovable : s.created mover = true := by
      obtain hsame | hmoved := hthere
      · exact hsame ▸ hcreated
      · by_contra hgone
        exact hmoved (h.fresh mover (by simpa using hgone))
    have hnone := hrest (.thread action) (by simp [Bodies.isOwn, hmover])
    simp only [Bodies.runMachine, Bodies.step, hmover, Option.all_some, hmovable, ↓reduceIte,
      Option.map_eq_none_iff] at hnone
    exact henabled hnone
  have hcreated := h.created
  cases hphase : s.phase with
  | starting side =>
    have hnone := hrest .start rfl
    simp [Bodies.runMachine, Bodies.step, hphase] at hnone
  | failed =>
    rw [hphase] at hcreated
    have hfirst := hexited .first ((hcreated .first).resolve_right (by simp))
    have hnone := hrest .join rfl
    simp [Bodies.runMachine, Bodies.step, hphase, hfirst] at hnone
  | joining side =>
    rw [hphase] at hcreated
    have hside := hexited side ((hcreated side).resolve_right (by simp))
    have hnone := hrest .join rfl
    simp [Bodies.runMachine, Bodies.step, hphase, hside] at hnone
  | joined =>
    have hnone := hrest .finish rfl
    simp [Bodies.runMachine, Bodies.step, hphase] at hnone
  | returned | threw => simp [Run.isOver, hphase]

/-- Once the threads are told to stop, it is over after so many steps at most. -/
theorem Run.countP_le (hB : B.Lawful fresh told remaining) (hreach : B.runMachine.Reachable s)
    (htold : told s.threads) {schedule : List (Action Inner)} {last : Run State Result}
    (hrun : B.runMachine.run s schedule = some last) :
    schedule.countP B.isOwn + (remaining last.threads + last.phase.stepsLeft) ≤
      remaining s.threads + s.phase.stepsLeft := by
  have hpermitted : B.runMachine.RunsBy (fun s _ => told s.threads) s schedule := by
    refine transition.Machine.Reachable.runsBy_of_trapped (I := fun s => told s.threads)
      (fun s action next _ htold hstep => ?_) hreach htold schedule
    cases Bodies.turn_of_step hstep with
    | thread action threads _ hthreads => exact hB.told_step _ _ _ htold hthreads
    | _ => exact htold
  refine hreach.countP_le B.isOwn (fun s => remaining s.threads + s.phase.stepsLeft) ?_ ?_ hpermitted hrun
  · intro s action next hs htold hown hstep
    have h := Run.sound_of_reachable hB hs
    cases Bodies.turn_of_step hstep with
    | start side hphase | join side hphase =>
      rw [hphase]
      cases side <;> simp [Phase.afterStart, Phase.afterJoin, Phase.stepsLeft]
    | finish hphase | rethrow hphase =>
      rw [hphase]
      simp [Phase.stepsLeft]
    | startThrows => cases hown
    | thread action threads _ hthreads =>
      exact Nat.add_lt_add_right (hB.spends _ _ _ h.reachable htold hown hthreads) _
  · intro s action next hs _ hother hstep
    cases Bodies.turn_of_step hstep with
    | startThrows side hphase =>
      rw [hphase]
      cases side <;> simp [Phase.afterThrow, Phase.stepsLeft]
    | thread action threads _ hthreads =>
      refine Nat.add_le_add_right (hB.keeps _ _ _ ?_ hthreads) _
      simpa [Bodies.isOwn] using hother
    | _ => cases hother

end two_threads
