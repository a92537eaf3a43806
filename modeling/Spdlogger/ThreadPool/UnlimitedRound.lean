import Mathlib.Data.List.Perm.Basic
import Spdlogger.ThreadPool.Round
import Spdlogger.ThreadPool.Unlimited

namespace spdlogger.thread_pool.unlimited

variable {Exception : Type}

/-- The client submits the tasks in their order and then waits, once; each task
ends as it is given. -/
def allowed [DecidableEq Exception] (tasks : List (Option Exception))
    (s : State (Option Exception)) : Action (Option Exception) Exception → Bool
  | .submit function => tasks[s.submitted.length]? = some function
  | .wait => s.submitted.length = tasks.length && s.waits = 0
  | .join | .invoke _ => true
  | .returns index => s.workerThreads[index]?.any fun thread => thread.function = none
  | .throws index exception =>
    s.workerThreads[index]?.any fun thread => thread.function = some exception

/-- The round on a pool without a limit. -/
def round [DecidableEq Exception] (tasks : List (Option Exception)) :
    transition.Machine (State (Option Exception)) (Action (Option Exception) Exception) :=
  (poolMachine (Option Exception) Exception).restrict (allowed tasks)

/-- `wait` never rethrows in this mode. -/
def State.observe (s : State (Option Exception)) : Observation Exception :=
  ⟨s.invoked, s.finished, if s.waits = 0 then none else some none⟩

/-- The function of the thread has been called. -/
def Thread.isInvoked {Fn : Type} (thread : Thread Fn) : Bool := thread.phase ≠ .started

/-- The thread is through and can be joined. -/
def Thread.isFinished {Fn : Type} (thread : Thread Fn) : Bool := thread.phase = .finished

/-- The books while the threads are there. -/
structure State.Running (s : State (Option Exception)) : Prop where
  ids : s.workerThreads.map Thread.id = List.range s.submitted.length
  functions : s.workerThreads.map Thread.function = s.submitted
  invoked : s.invoked.Perm ((s.workerThreads.filter Thread.isInvoked).map Thread.id)
  finished : s.finished.Perm ((s.workerThreads.filter Thread.isFinished).map Thread.id)
  returned : ∀ thread ∈ s.workerThreads, thread.isFinished → thread.function = none

/-- The books once `wait` has come back. -/
structure State.Over (tasks : List (Option Exception)) (s : State (Option Exception)) : Prop where
  cleared : s.workerThreads = []
  idle : s.caller = .idle
  submitted : s.submitted = tasks
  invoked : s.invoked.Perm (List.range tasks.length)
  finished : s.finished.Perm (List.range tasks.length)
  returned : ∀ task ∈ tasks, task = none

/-- How far the round is, by what the pool has of it. -/
structure State.Booked (tasks : List (Option Exception)) (s : State (Option Exception)) : Prop where
  taken : s.submitted <+: tasks
  running : s.waits = 0 → s.Running
  joining : ∀ index, s.caller = .joining index → s.waits = 0 ∧ s.submitted = tasks ∧
    ∀ thread ∈ s.workerThreads.take index, thread.isFinished
  ended : s.waits ≠ 0 → s.Over tasks

/-- A step of one thread changes its own entry of the vector. -/
theorem State.setPhase_split {Fn : Type} {s : State Fn} {index : Nat} {thread : Thread Fn}
    (hthread : s.workerThreads[index]? = some thread) :
    ∃ before after, before = s.workerThreads.take index ∧
      s.workerThreads = before ++ thread :: after ∧ ∀ phase,
        (s.setPhase index thread phase).workerThreads = before ++ { thread with phase } :: after := by
  obtain ⟨hlt, hget⟩ := List.getElem?_eq_some_iff.mp hthread
  refine ⟨s.workerThreads.take index, s.workerThreads.drop (index + 1), rfl, ?_, fun phase => ?_⟩
  · rw [← hget, ← List.drop_eq_getElem_cons hlt, List.take_append_drop]
  · rw [State.setPhase, List.set_eq_take_append_cons_drop, if_pos hlt]

/-- An element may be added in the middle as well as at the end. -/
theorem perm_append_insert {α : Type*} {l first second : List α} {x : α}
    (hperm : l.Perm (first ++ second)) : (l ++ [x]).Perm (first ++ x :: second) :=
  (hperm.append_right [x]).trans ((List.perm_append_singleton x _).trans List.perm_middle.symm)

/-- A submit starts a thread with the task. -/
theorem State.Running.submit {s : State (Option Exception)} (h : s.Running)
    (function : Option Exception) :
    State.Running { s with
      workerThreads := s.workerThreads ++ [⟨s.submitted.length, function, .started⟩]
      submitted := s.submitted ++ [function] } := by
  refine ⟨?_, ?_, ?_, ?_, ?_⟩
  · simp [h.ids, List.range_succ]
  · simp [h.functions]
  · simpa [List.filter_append, Thread.isInvoked] using h.invoked
  · simpa [List.filter_append, Thread.isFinished] using h.finished
  · intro thread hthread hfinished
    rcases List.mem_append.mp hthread with hearlier | hnew
    · exact h.returned thread hearlier hfinished
    · rw [List.mem_singleton] at hnew
      rw [hnew] at hfinished
      cases hfinished

/-- A thread begins with its function. -/
theorem State.Running.invoke {s : State (Option Exception)} (h : s.Running) {index : Nat}
    {thread : Thread (Option Exception)} (hthread : s.workerThreads[index]? = some thread)
    (hphase : thread.phase = .started) :
    State.Running { s.setPhase index thread .invoking with
      invoked := s.invoked ++ [thread.id] } := by
  obtain ⟨before, after, _, hsplit, hset⟩ := State.setPhase_split hthread
  obtain ⟨hids, hfunctions, hinvoked, hfinished, hreturned⟩ := h
  have hnew := hset .invoking
  rw [hsplit] at hids hfunctions hinvoked hfinished hreturned
  refine ⟨?_, ?_, ?_, ?_, ?_⟩
  · simpa [hnew] using hids
  · simpa [hnew] using hfunctions
  · simp only [List.filter_append, List.filter_cons, Thread.isInvoked, hphase] at hinvoked
    simp only [hnew, List.filter_append, List.filter_cons, Thread.isInvoked]
    simpa using perm_append_insert (x := thread.id) (by simpa using hinvoked)
  · simpa [hnew, List.filter_cons, Thread.isFinished, hphase] using hfinished
  · intro other hother hdone
    rw [hnew, List.mem_append, List.mem_cons] at hother
    obtain hmem | rfl | hmem := hother
    · exact hreturned other (List.mem_append_left _ hmem) hdone
    · cases hdone
    · exact hreturned other (List.mem_append_right _ (List.mem_cons_of_mem _ hmem)) hdone

/-- A thread whose function returns is through. -/
theorem State.Running.returns {s : State (Option Exception)} (h : s.Running) {index : Nat}
    {thread : Thread (Option Exception)} (hthread : s.workerThreads[index]? = some thread)
    (hphase : thread.phase = .invoking) (hfunction : thread.function = none) :
    State.Running { s.setPhase index thread .finished with
      finished := s.finished ++ [thread.id] } := by
  obtain ⟨before, after, _, hsplit, hset⟩ := State.setPhase_split hthread
  obtain ⟨hids, hfunctions, hinvoked, hfinished, hreturned⟩ := h
  have hnew := hset .finished
  rw [hsplit] at hids hfunctions hinvoked hfinished hreturned
  refine ⟨?_, ?_, ?_, ?_, ?_⟩
  · simpa [hnew] using hids
  · simpa [hnew] using hfunctions
  · simpa [hnew, List.filter_cons, Thread.isInvoked, hphase] using hinvoked
  · simp only [List.filter_append, List.filter_cons, Thread.isFinished, hphase] at hfinished
    simp only [hnew, List.filter_append, List.filter_cons, Thread.isFinished]
    simpa using perm_append_insert (x := thread.id) (by simpa using hfinished)
  · intro other hother hdone
    rw [hnew, List.mem_append, List.mem_cons] at hother
    obtain hmem | rfl | hmem := hother
    · exact hreturned other (List.mem_append_left _ hmem) hdone
    · exact hfunction
    · exact hreturned other (List.mem_append_right _ (List.mem_cons_of_mem _ hmem)) hdone

/-- When the loop of `wait` has passed all threads, everything is accounted for. -/
theorem State.Running.ends {tasks : List (Option Exception)} {s : State (Option Exception)}
    (h : s.Running) (hsubmitted : s.submitted = tasks)
    (hjoined : ∀ thread ∈ s.workerThreads, thread.isFinished) :
    State.Over tasks { s with workerThreads := [], caller := .idle, waits := s.waits + 1 } := by
  have hinvokedAll : s.workerThreads.filter Thread.isInvoked = s.workerThreads := by
    refine List.filter_eq_self.mpr fun thread hthread => ?_
    have hdone := hjoined thread hthread
    simp only [Thread.isFinished, decide_eq_true_eq] at hdone
    simp [Thread.isInvoked, hdone]
  have hfinishedAll : s.workerThreads.filter Thread.isFinished = s.workerThreads :=
    List.filter_eq_self.mpr hjoined
  refine ⟨rfl, rfl, hsubmitted, ?_, ?_, ?_⟩
  · have hinvoked := h.invoked
    rwa [hinvokedAll, h.ids, hsubmitted] at hinvoked
  · have hfinished := h.finished
    rwa [hfinishedAll, h.ids, hsubmitted] at hfinished
  · intro task htask
    rw [← hsubmitted, ← h.functions] at htask
    obtain ⟨thread, hthread, rfl⟩ := List.mem_map.mp htask
    exact h.returned thread hthread (hjoined thread hthread)

/-- A finished thread stays finished while another one moves. -/
theorem State.finished_of_setPhase {s : State (Option Exception)} {index joined : Nat}
    {thread : Thread (Option Exception)} (hthread : s.workerThreads[index]? = some thread)
    (hphase : ¬ thread.isFinished) {phase : ThreadPhase}
    (hjoined : ∀ thread ∈ s.workerThreads.take joined, thread.isFinished) :
    ∀ other ∈ (s.setPhase index thread phase).workerThreads.take joined, other.isFinished := by
  have hfar : joined ≤ index := by
    by_contra hnear
    refine hphase (hjoined thread ?_)
    rw [List.mem_take_iff_getElem]
    obtain ⟨hlt, hget⟩ := List.getElem?_eq_some_iff.mp hthread
    exact ⟨index, by omega, hget⟩
  intro other hother
  rw [State.setPhase, List.take_set_of_le hfar] at hother
  exact hjoined other hother

/-- While a thread is in the vector, no `wait` has come back. -/
theorem State.Booked.waits_eq_zero {tasks : List (Option Exception)} {s : State (Option Exception)}
    (h : s.Booked tasks) {index : Nat} {thread : Thread (Option Exception)}
    (hthread : s.workerThreads[index]? = some thread) : s.waits = 0 := by
  by_contra hwaits
  rw [(h.ended hwaits).cleared] at hthread
  simp at hthread

variable [DecidableEq Exception] {tasks : List (Option Exception)}

omit [DecidableEq Exception] in
/-- A step of one thread, while nothing has been joined that it could undo. -/
theorem State.Booked.setPhase {s next : State (Option Exception)} (h : s.Booked tasks) {index : Nat}
    {thread : Thread (Option Exception)} (hthread : s.workerThreads[index]? = some thread)
    (hphase : thread.phase ≠ .finished) {phase : ThreadPhase}
    (hthreads : next.workerThreads = (s.setPhase index thread phase).workerThreads)
    (hcaller : next.caller = s.caller) (hsubmitted : next.submitted = s.submitted)
    (hwaits : next.waits = s.waits) (hrunning : s.Running → next.Running) : next.Booked tasks := by
  have hnone := h.waits_eq_zero hthread
  refine ⟨hsubmitted ▸ h.taken, fun _ => hrunning (h.running hnone), ?_, fun hended => ?_⟩
  · intro joined hjoining
    obtain ⟨_, htaken, hjoined⟩ := h.joining joined (hcaller ▸ hjoining)
    refine ⟨hwaits.trans hnone, hsubmitted.trans htaken, ?_⟩
    rw [hthreads]
    refine State.finished_of_setPhase hthread ?_ hjoined
    simpa [Thread.isFinished] using hphase
  · exact absurd (hwaits.trans hnone) hended

omit [DecidableEq Exception] in
/-- The books do not depend on where the client stands. -/
theorem State.Running.congr {s next : State (Option Exception)} (h : s.Running)
    (hthreads : next.workerThreads = s.workerThreads) (hsubmitted : next.submitted = s.submitted)
    (hinvoked : next.invoked = s.invoked) (hfinished : next.finished = s.finished) :
    next.Running := by
  refine ⟨?_, ?_, ?_, ?_, ?_⟩
  · rw [hthreads, hsubmitted, h.ids]
  · rw [hthreads, hsubmitted, h.functions]
  · rw [hthreads, hinvoked]
    exact h.invoked
  · rw [hthreads, hfinished]
    exact h.finished
  · rw [hthreads]
    exact h.returned

/-- Each step keeps the books of the round. -/
theorem State.Booked.step {s next : State (Option Exception)} (h : s.Booked tasks)
    {action : Action (Option Exception) Exception} (hallowed : allowed tasks s action = true)
    (hmove : s.Move action next) : next.Booked tasks := by
  cases hmove with
  | submit function hidle =>
    simp only [allowed, decide_eq_true_eq] at hallowed
    refine ⟨prefix_concat h.taken hallowed, fun hwaits => (h.running hwaits).submit function,
      by simp [hidle], fun hwaits => ?_⟩
    have hall := (h.ended hwaits).submitted
    simp [hall] at hallowed
  | wait =>
    simp only [allowed, Bool.and_eq_true, decide_eq_true_eq] at hallowed
    refine ⟨h.taken, fun hwaits => (h.running hwaits).congr rfl rfl rfl rfl, fun index hindex => ?_,
      fun hwaits => absurd hallowed.2 hwaits⟩
    cases hindex
    exact ⟨hallowed.2, h.taken.eq_of_length hallowed.1, by simp⟩
  | join index thread hcaller hthread hphase =>
    obtain ⟨hwaits, hsubmitted, hjoined⟩ := h.joining index hcaller
    refine ⟨h.taken, fun _ => (h.running hwaits).congr rfl rfl rfl rfl, fun later hlater => ?_,
      fun hended => absurd hwaits hended⟩
    cases hlater
    refine ⟨hwaits, hsubmitted, fun other hother => ?_⟩
    rw [List.take_add_one, hthread] at hother
    rcases List.mem_append.mp hother with hearlier | hnow
    · exact hjoined other hearlier
    · rw [Option.toList_some, List.mem_singleton] at hnow
      simp [hnow, Thread.isFinished, hphase]
  | clear index hcaller hthread =>
    obtain ⟨hwaits, hsubmitted, hjoined⟩ := h.joining index hcaller
    rw [List.take_of_length_le (List.getElem?_eq_none_iff.mp hthread)] at hjoined
    exact ⟨h.taken, by simp, by simp, fun _ => (h.running hwaits).ends hsubmitted hjoined⟩
  | invoke index thread hthread hphase =>
    refine h.setPhase hthread (by simp [hphase]) rfl rfl rfl rfl fun hrunning => ?_
    exact hrunning.invoke hthread hphase
  | returns index thread hthread hphase =>
    simp only [allowed, hthread, Option.any_some, decide_eq_true_eq] at hallowed
    refine h.setPhase hthread (by simp [hphase]) rfl rfl rfl rfl fun hrunning => ?_
    exact hrunning.returns hthread hphase hallowed
  | throws _ _ thread hthread _ =>
    have hwaits := h.waits_eq_zero hthread
    exact ⟨h.taken, fun _ => (h.running hwaits).congr rfl rfl rfl rfl, h.joining,
      fun hended => absurd hwaits hended⟩

/-- The books of the round hold in every reachable state. -/
theorem State.booked_of_reachable {s : State (Option Exception)}
    (hreach : (round tasks).Reachable s) : s.Booked tasks := by
  refine transition.Machine.Reachable.invariant ?_ ?_ hreach
  · rintro s rfl
    refine ⟨List.nil_prefix, fun _ => ⟨rfl, rfl, List.Perm.refl _, List.Perm.refl _, ?_⟩, ?_, ?_⟩
    · simp
    · simp
    · simp
  · intro s action next h hstep
    obtain ⟨hallowed, hstep⟩ := transition.Machine.restrict_step_iff.mp hstep
    exact h.step hallowed (State.move_of_step hstep).2

end spdlogger.thread_pool.unlimited
