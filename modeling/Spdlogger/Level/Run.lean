import Spdlogger.Level.Step

namespace spdlogger.level

open two_threads (Side Bodies)

/-- The thread that takes the step. -/
def Action.side : Action → Option Side
  | .stop => none
  | .writeStep => some .first
  | .load _ | .readStep => some .second

/-- The thread is through and can be joined. -/
def State.exited (s : State) : Side → Bool
  | .first => s.writeThread = .exited
  | .second => s.readThread = .exited

/-- The two threads of `LevelTest`, whose `run` has nothing to tell of them. -/
def bodies : Bodies State Action Unit where
  machine := levelMachine
  side := Action.side
  exited := State.exited
  finish _ := ()

/-- The thread is where it starts. -/
def State.fresh (s : State) : Side → Prop
  | .first => s.writeThread = .testing
  | .second => s.readThread = .testing

/-- The steps the writer has left once `stop` is set. -/
def WriterPhase.stepsLeft : WriterPhase → Nat
  | .exited => 0
  | .testing => 1
  | .sleeping => 2
  | .adding => 3

/-- The steps the reader has left once `stop` is set. -/
def ReaderPhase.stepsLeft : ReaderPhase → Nat
  | .exited => 0
  | .testing => 1
  | .sleeping => 2
  | .logging _ => 3
  | .loading => 4

/-- The steps both threads have left once `stop` is set. -/
def State.stepsLeft (s : State) : Nat := s.writeThread.stepsLeft + s.readThread.stepsLeft

/-- How often the writer has added one. -/
def State.increments (s : State) : Nat := s.modifications.length - 1

/-- The parity of the true number, which the 32 bits keep when they wrap. -/
def parityOf (count : Nat) : String := if count % 2 = 1 then "odd" else "even"

/-- Cutting a number to 32 bits does not change its parity. -/
theorem parity_ofNat (count : Nat) : parity (BitVec.ofNat 32 count) = parityOf count := by
  have hbit : BitVec.ofNat 32 count &&& 1 ≠ 0 ↔ count % 2 = 1 := by
    rw [Ne, ← BitVec.toNat_inj, BitVec.toNat_and, BitVec.toNat_ofNat]
    simp [Nat.and_one_is_mod]
  unfold parity parityOf
  simp only [hbit]

variable {s next : State}

/-- What a step does to the threads, to `stop` and to the counter. -/
theorem State.frame_of_step {action : Action} (hstep : s.step action = some next) :
    (action.side ≠ some .first → next.writeThread = s.writeThread ∧
        next.modifications = s.modifications) ∧
      (action.side ≠ some .second → next.readThread = s.readThread ∧ next.seen = s.seen ∧
        next.log = s.log ∧ next.loads = s.loads) ∧
      next.stop = (s.stop || action.side.isNone) := by
  cases action with
  | stop =>
    cases hstep
    simp [Action.side]
  | writeStep =>
    simp only [State.step, State.writeStep] at hstep
    cases hphase : s.writeThread with
    | exited => simp [hphase] at hstep
    | _ =>
      simp only [hphase, Option.some.injEq] at hstep
      subst hstep
      simp [Action.side]
  | load index =>
    simp only [State.step, State.load, Option.ite_none_right_eq_some, Option.map_eq_some_iff] at hstep
    obtain ⟨_, level, _, rfl⟩ := hstep
    simp [Action.side]
  | readStep =>
    simp only [State.step, State.readStep] at hstep
    cases hphase : s.readThread with
    | loading | exited => simp [hphase] at hstep
    | _ =>
      simp only [hphase, Option.some.injEq] at hstep
      subst hstep
      simp [Action.side]

/-- The line the reader is about to log. -/
def State.inHand (s : State) : List String :=
  match s.readThread with
  | .logging level => [parity level]
  | _ => []

/-- The counter is the number of increments, cut to 32 bits; the loads do not fall back,
and the reader logs the parity of each. -/
structure State.Counted (s : State) : Prop where
  modifications : ∀ index level, s.modifications[index]? = some level → level = BitVec.ofNat 32 index
  nonempty : s.modifications ≠ []
  seen : s.seen ≤ s.increments
  logging : ∀ level, s.readThread = .logging level → level = BitVec.ofNat 32 s.seen
  loads : s.loads.Pairwise (· ≤ ·)
  latest : ∀ count ∈ s.loads, count ≤ s.seen
  log : s.loads.map parityOf = s.log ++ s.inHand

/-- What the next increment stores is the number of modifications, cut to 32 bits. -/
theorem State.Counted.last (h : s.Counted) :
    s.modifications.getLastD 0 + 1 = BitVec.ofNat 32 s.modifications.length := by
  have hlength := List.length_pos_iff.mpr h.nonempty
  have hlevel := List.getElem?_eq_getElem (show s.modifications.length - 1 < s.modifications.length by omega)
  have hlast : s.modifications.getLastD 0 = s.modifications[s.modifications.length - 1] := by
    rw [List.getLastD_eq_getLast?, List.getLast?_eq_getElem?, hlevel]
    rfl
  have hone : (1 : BitVec 32) = BitVec.ofNat 32 1 := rfl
  rw [hlast, h.modifications _ _ hlevel, hone, ← BitVec.ofNat_add]
  congr 1
  omega

/-- Each step keeps the account of the modifications and the lines. -/
theorem State.Counted.step (h : s.Counted) {action : Action} (hstep : s.step action = some next) :
    next.Counted := by
  cases action with
  | stop =>
    cases hstep
    exact ⟨h.modifications, h.nonempty, h.seen, h.logging, h.loads, h.latest, h.log⟩
  | writeStep =>
    simp only [State.step, State.writeStep] at hstep
    cases hphase : s.writeThread with
    | adding =>
      simp only [hphase, Option.some.injEq] at hstep
      subst hstep
      refine ⟨fun index level hlevel => ?_, by simp, ?_, h.logging, h.loads, h.latest, h.log⟩
      · rw [List.getElem?_append] at hlevel
        split at hlevel
        · exact h.modifications index level hlevel
        · rename_i hbeyond
          obtain ⟨hindex, hvalue⟩ := List.getElem?_eq_some_iff.mp hlevel
          simp only [List.length_singleton] at hindex
          have hsame : index = s.modifications.length := by omega
          rw [hsame, ← h.last, ← hvalue]
          simp
      · have hseen := h.seen
        simp only [State.increments, List.length_append, List.length_singleton] at hseen ⊢
        omega
    | exited => simp [hphase] at hstep
    | testing | sleeping =>
      simp only [hphase, Option.some.injEq] at hstep
      subst hstep
      exact ⟨h.modifications, h.nonempty, h.seen, h.logging, h.loads, h.latest, h.log⟩
  | load index =>
    simp only [State.step, State.load, Option.ite_none_right_eq_some, Option.map_eq_some_iff] at hstep
    obtain ⟨⟨hphase, hseen⟩, level, hlevel, rfl⟩ := hstep
    have hlog := h.log
    simp only [State.inHand, hphase, List.append_nil] at hlog
    refine ⟨h.modifications, h.nonempty, ?_, ?_, ?_, ?_, ?_⟩
    · have hindex := (List.getElem?_eq_some_iff.mp hlevel).1
      simp only [State.increments]
      omega
    · rintro other ⟨⟩
      exact h.modifications index level hlevel
    · rw [List.pairwise_append]
      refine ⟨h.loads, List.pairwise_singleton _ _, fun count hcount last hlast => ?_⟩
      rw [List.mem_singleton.mp hlast]
      exact (h.latest count hcount).trans hseen
    · intro count hcount
      obtain hearlier | hlast := List.mem_append.mp hcount
      · exact (h.latest count hearlier).trans hseen
      · exact (List.mem_singleton.mp hlast).le
    · rw [List.map_append, hlog, h.modifications index level hlevel]
      simp only [State.inHand, parity_ofNat, List.map_singleton]
  | readStep =>
    simp only [State.step, State.readStep] at hstep
    cases hphase : s.readThread with
    | logging level =>
      simp only [hphase, Option.some.injEq] at hstep
      subst hstep
      have hlog := h.log
      simp only [State.inHand, hphase] at hlog
      exact ⟨h.modifications, h.nonempty, h.seen, by simp, h.loads, h.latest,
        hlog.trans (List.append_nil _).symm⟩
    | loading | exited => simp [hphase] at hstep
    | testing | sleeping =>
      simp only [hphase, Option.some.injEq] at hstep
      subst hstep
      have hlog := h.log
      simp only [State.inHand, hphase] at hlog
      refine ⟨h.modifications, h.nonempty, h.seen, ?_, h.loads, h.latest, hlog.trans ?_⟩
      · cases s.stop <;> simp
      · cases s.stop <;> rfl

/-- The account of the modifications and the lines holds in every reachable state. -/
theorem State.counted_of_reachable (hreach : levelMachine.Reachable s) : s.Counted := by
  refine transition.Machine.Reachable.invariant (I := State.Counted) ?_
    (fun s action next h hstep => h.step hstep) hreach
  rintro s rfl
  refine ⟨fun index level hlevel => ?_, by simp, Nat.zero_le _, by simp, by simp, by simp, rfl⟩
  cases index with
  | zero => simpa using hlevel.symm
  | succ index => simp at hlevel

/-- Neither thread waits for the other. -/
theorem State.exists_step_of_not_exited (hreach : levelMachine.Reachable s) {side : Side}
    (hside : s.exited side = false) :
    ∃ action, Action.side action = some side ∧ s.step action ≠ none := by
  cases side with
  | first =>
    refine ⟨.writeStep, rfl, ?_⟩
    cases hphase : s.writeThread <;> simp_all [State.exited, State.step, State.writeStep]
  | second =>
    have hcounted := State.counted_of_reachable hreach
    cases hphase : s.readThread with
    | exited => simp [State.exited, hphase] at hside
    | loading =>
      refine ⟨.load s.seen, rfl, ?_⟩
      have hlength := List.length_pos_iff.mpr hcounted.nonempty
      have hseen : s.seen < s.modifications.length := by
        have hbound := hcounted.seen
        simp only [State.increments] at hbound
        omega
      simp [State.step, State.load, hphase, hseen]
    | testing | logging | sleeping =>
      exact ⟨.readStep, rfl, by simp [State.step, State.readStep, hphase]⟩

/-- Once `stop` is set, a round is the last. -/
theorem State.stepsLeft_lt (hstop : s.stop = true) {action : Action}
    (hside : action.side.isSome = true) (hstep : s.step action = some next) :
    next.stepsLeft < s.stepsLeft := by
  have hframe := State.frame_of_step hstep
  unfold State.stepsLeft
  cases action with
  | stop => cases hside
  | writeStep =>
    rw [(hframe.2.1 (by simp [Action.side])).1]
    refine Nat.add_lt_add_right ?_ _
    simp only [State.step, State.writeStep] at hstep
    cases hphase : s.writeThread with
    | exited => simp [hphase] at hstep
    | _ =>
      simp only [hphase, hstop, Option.some.injEq] at hstep
      subst hstep
      simp [WriterPhase.stepsLeft]
  | load index =>
    rw [(hframe.1 (by simp [Action.side])).1]
    refine Nat.add_lt_add_left ?_ _
    simp only [State.step, State.load, Option.ite_none_right_eq_some, Option.map_eq_some_iff] at hstep
    obtain ⟨⟨hphase, _⟩, level, _, rfl⟩ := hstep
    simp [hphase, ReaderPhase.stepsLeft]
  | readStep =>
    rw [(hframe.1 (by simp [Action.side])).1]
    refine Nat.add_lt_add_left ?_ _
    simp only [State.step, State.readStep] at hstep
    cases hphase : s.readThread with
    | loading | exited => simp [hphase] at hstep
    | _ =>
      simp only [hphase, hstop, Option.some.injEq] at hstep
      subst hstep
      simp [ReaderPhase.stepsLeft]

/-- The two bodies meet the laws of a pair of threads that `stop` ends. -/
theorem lawful_bodies : bodies.Lawful State.fresh (fun s => s.stop = true) State.stepsLeft where
  fresh_init s side hinit := by
    cases hinit
    cases side <;> rfl
  fresh_step s action next side hfresh hother hstep := by
    obtain ⟨hwriter, hreader, _⟩ := State.frame_of_step hstep
    cases side with
    | first => exact (hwriter hother).1.trans hfresh
    | second => exact (hreader hother).1.trans hfresh
  exited_step s action next side hexited hother hstep := by
    obtain ⟨hwriter, hreader, _⟩ := State.frame_of_step hstep
    cases side with
    | first => simpa [bodies, State.exited, (hwriter hother).1] using hexited
    | second => simpa [bodies, State.exited, (hreader hother).1] using hexited
  stuck s action side hexited hside := by
    cases side with
    | first =>
      have hphase : s.writeThread = .exited := by simpa [bodies, State.exited] using hexited
      cases action with
      | writeStep => simp [bodies, levelMachine, State.step, State.writeStep, hphase]
      | stop | load | readStep => cases hside
    | second =>
      have hphase : s.readThread = .exited := by simpa [bodies, State.exited] using hexited
      cases action with
      | load | readStep =>
        simp [bodies, levelMachine, State.step, State.load, State.readStep, hphase]
      | stop | writeStep => cases hside
  finish_step _ _ _ _ _ := rfl
  goes s side hreach hexited := by
    obtain ⟨action, hside, henabled⟩ := State.exists_step_of_not_exited hreach hexited
    exact ⟨action, side, hside, .inl rfl, henabled⟩
  told_step s action next hstop hstep := by
    rw [(State.frame_of_step hstep).2.2, hstop]
    rfl
  spends s action next _ hstop hside hstep := State.stepsLeft_lt hstop hside hstep
  keeps s action next hside hstep := by
    have hnone : action.side = none := hside
    obtain ⟨hwriter, hreader, _⟩ := State.frame_of_step hstep
    rw [State.stepsLeft, (hwriter (by simp [hnone])).1, (hreader (by simp [hnone])).1,
      ← State.stepsLeft]

/-- The whole run. It does not end before the threads that it could start, and as long as
it has not ended it can go on. Once `stop` is set, 12 steps are the most. The log, with the
line the reader has in hand, tells the parity of each load, in the order of the loads; the
loads are of numbers of increments that do not fall back, and the parities are theirs also
when the counter has wrapped. -/
theorem run_log {s : two_threads.Run State Unit} (hreach : bodies.runMachine.Reachable s) :
    (s.isOver = true → ∀ side, s.created side = true → s.threads.exited side = true) ∧
      (bodies.runMachine.Quiescent bodies.isOwn s → s.isOver = true) ∧
      (s.threads.stop = true → ∀ schedule last, bodies.runMachine.run s schedule = some last →
        schedule.countP bodies.isOwn ≤ 12) ∧
      s.threads.loads.map parityOf = s.threads.log ++ s.threads.inHand ∧
      s.threads.loads.Pairwise (· ≤ ·) ∧
      (∀ count ∈ s.threads.loads, count ≤ s.threads.increments) ∧
      ∀ count level, s.threads.modifications[count]? = some level →
        level = BitVec.ofNat 32 count := by
  have hcounted := State.counted_of_reachable
    (two_threads.Run.sound_of_reachable lawful_bodies hreach).reachable
  refine ⟨fun hover side => two_threads.Run.exited_of_isOver lawful_bodies hreach hover,
    two_threads.Run.isOver_of_quiescent lawful_bodies hreach, ?_, hcounted.log, hcounted.loads,
    fun count hcount => (hcounted.latest count hcount).trans hcounted.seen,
    hcounted.modifications⟩
  intro hstop schedule last hrun
  have hbound := two_threads.Run.countP_le lawful_bodies hreach hstop hrun
  have hthreads : s.threads.stepsLeft ≤ 7 := by
    unfold State.stepsLeft
    cases s.threads.writeThread <;> cases s.threads.readThread <;>
      simp [WriterPhase.stepsLeft, ReaderPhase.stepsLeft]
  have hphase := s.phase.stepsLeft_le
  omega

/-- A reader that is late to see the increment. -/
theorem run_log_late : ∃ s : two_threads.Run State Unit, bodies.runMachine.Reachable s ∧
    s.phase = .returned ∧ s.threads.loads = [0, 1] ∧ s.threads.increments = 1 ∧
      s.threads.exited .second = true ∧ ["even", "odd"] = s.threads.log ++ s.threads.inHand := by
  obtain ⟨s, hreach, hcheck⟩ := transition.Machine.exists_reachable_of_run
    (M := bodies.runMachine) (s := { threads := {} }) ⟨_, rfl, rfl⟩
    (.start :: .start :: [Action.writeStep, .writeStep, .writeStep, .readStep, .load 0, .readStep,
      .readStep, .readStep, .load 1, .stop, .readStep, .readStep, .readStep, .writeStep].map .thread ++
      [.join, .join, .finish])
    (fun s => s.phase = .returned ∧ s.created .second = true ∧ s.threads.loads = [0, 1] ∧
      s.threads.increments = 1) (by decide)
  simp only [decide_eq_true_eq] at hcheck
  obtain ⟨hphase, hcreated, hloads, hincrements⟩ := hcheck
  obtain ⟨hexited, _, _, hlog, _⟩ := run_log hreach
  rw [hloads] at hlog
  exact ⟨s, hreach, hphase, hloads, hincrements,
    hexited (by simp [two_threads.Run.isOver, hphase]) .second hcreated, hlog⟩

end spdlogger.level
