import Spdlogger.ThreadPool.NoLostWakeUps

namespace spdlogger.thread_pool

variable {maxThreads : Nat} {Tid Fn Exception : Type}

/-- The destructor is through with the worker of this index. -/
def DestructorPhase.hasJoined (index : Nat) : DestructorPhase → Bool
  | .joining next => index < next
  | .destroyed => true
  | _ => false

/-- `~ThreadPool` is in its own `wait` exactly in the phase for it, only the
destructor stops the pool, only a stopped pool lets a worker go, and the
destructor passes a worker only once it is gone. -/
structure State.Orderly (s : State maxThreads Tid Fn Exception) : Prop where
  waits : s.destructor = .waiting ↔ s.clients .destructor ≠ .idle
  stopped : s.stopping → s.destructor.hasStopped
  exited : ∀ worker, s.workers worker = .exited → s.stopping
  joined : ∀ worker : Fin maxThreads, s.destructor.hasJoined worker → s.workers worker = .exited

/-- A step that leaves the destructor, the flag and the exits alone keeps the order. -/
theorem State.Orderly.frame {s next : State maxThreads Tid Fn Exception} (h : s.Orderly)
    (hdestructor : next.destructor = s.destructor) (hstopping : next.stopping = s.stopping)
    (hclient : next.clients .destructor = .idle ↔ s.clients .destructor = .idle)
    (hworkers : ∀ worker, next.workers worker = .exited ↔ s.workers worker = .exited) :
    next.Orderly := by
  refine ⟨?_, ?_, ?_, ?_⟩
  · rw [hdestructor, h.waits]
    exact not_congr hclient.symm
  · rw [hdestructor, hstopping]
    exact h.stopped
  · intro worker hexited
    rw [hstopping]
    exact h.exited worker ((hworkers worker).mp hexited)
  · intro worker hjoined
    rw [hdestructor] at hjoined
    exact (hworkers worker).mpr (h.joined worker hjoined)

/-- A worker that neither was gone nor goes. -/
theorem State.exited_setWorker {s : State maxThreads Tid Fn Exception} {worker : Fin maxThreads}
    {phase : WorkerPhase Fn Exception} (hbefore : s.workers worker ≠ .exited)
    (hafter : phase ≠ .exited) (other : Fin maxThreads) :
    (s.setWorker worker phase).workers other = .exited ↔ s.workers other = .exited :=
  ⟨fun hexited => threads.phase_of_update hexited hafter,
    fun hexited => threads.update_of_phase_ne hexited hbefore⟩

/-- A wake-up neither ends a worker nor brings one back. -/
theorem exited_wake (phase : WorkerPhase Fn Exception) :
    (workCondition Fn Exception).wake phase = .exited ↔ phase = .exited := by
  cases phase <;> simp [workCondition]

variable [DecidableEq Tid]

/-- A move of another client keeps the order. -/
theorem State.Orderly.setClient {s : State maxThreads Tid Fn Exception} (h : s.Orderly)
    {client : Client Tid maxThreads} {phase : ClientPhase}
    (hclient : client = .destructor → (phase = .idle ↔ s.clients .destructor = .idle)) :
    (s.setClient client phase).Orderly := by
  refine h.frame rfl rfl ?_ fun _ => Iff.rfl
  by_cases hself : client = .destructor
  · rw [hself, State.clients_setClient, Function.update_self]
    exact hclient hself
  · rw [State.clients_setClient, Function.update_of_ne (Ne.symm hself)]

omit [DecidableEq Tid] in
/-- The destructor stops the pool. -/
theorem State.Orderly.stop {s : State maxThreads Tid Fn Exception} (h : s.Orderly)
    (hphase : s.destructor = .stopping) :
    State.Orderly { s with stopping := true, destructor := .notifying } := by
  have hwaits := h.waits
  rw [hphase] at hwaits
  exact ⟨by simpa using hwaits, fun _ => rfl, fun _ _ => rfl, by simp [DestructorPhase.hasJoined]⟩

omit [DecidableEq Tid] in
/-- It wakes the workers. -/
theorem State.Orderly.wake {s : State maxThreads Tid Fn Exception} (h : s.Orderly)
    (hphase : s.destructor = .notifying) : State.Orderly { s with
      workers := (workCondition Fn Exception).notifyAll s.workers, destructor := .joining 0 } := by
  have hwaits := h.waits
  rw [hphase] at hwaits
  refine ⟨by simpa using hwaits, fun _ => rfl, fun worker hexited => ?_, ?_⟩
  · exact h.exited worker ((exited_wake _).mp hexited)
  · simp [DestructorPhase.hasJoined]

omit [DecidableEq Tid] in
/-- And it joins them, one after the other. -/
theorem State.Orderly.join {s : State maxThreads Tid Fn Exception} (h : s.Orderly)
    {worker : Fin maxThreads} (hphase : s.destructor = .joining worker)
    (hexited : s.workers worker = .exited) :
    State.Orderly { s with destructor := .joining (worker + 1) } := by
  have hwaits := h.waits
  have hjoined := h.joined
  rw [hphase] at hwaits hjoined
  refine ⟨by simpa using hwaits, fun _ => rfl, h.exited, fun other hother => ?_⟩
  simp only [DestructorPhase.hasJoined, decide_eq_true_eq] at hother
  by_cases hlast : other = worker
  · rw [hlast]
    exact hexited
  · apply hjoined other
    have hapart : other.val ≠ worker.val := fun hsame => hlast (Fin.ext hsame)
    simp only [DestructorPhase.hasJoined, decide_eq_true_eq]
    omega

omit [DecidableEq Tid] in
/-- The destructor is through when its loop is. -/
theorem State.Orderly.destroy {s : State maxThreads Tid Fn Exception} (h : s.Orderly) {index : Nat}
    (hphase : s.destructor = .joining index) (hall : maxThreads ≤ index) :
    State.Orderly { s with destructor := .destroyed } := by
  have hwaits := h.waits
  have hjoined := h.joined
  rw [hphase] at hwaits hjoined
  refine ⟨by simpa using hwaits, fun _ => rfl, h.exited, fun worker _ => ?_⟩
  apply hjoined worker
  have hlt := worker.isLt
  simp only [DestructorPhase.hasJoined, decide_eq_true_eq]
  omega

/-- A `wait` that comes back takes the destructor on, if it was its own. -/
theorem State.Orderly.pass {s : State maxThreads Tid Fn Exception} (h : s.Orderly)
    {client : Client Tid maxThreads} (hclient : s.clients client = .waiting)
    {destructor : DestructorPhase} (hdestructor : destructor = if client = .destructor then
      if s.firstException.isSome then .terminated else .stopping else s.destructor) :
    State.Orderly { s.setClient client .idle with
      firstException := none, destructor, log := s.log ++ [.waited s.firstException] } := by
  subst hdestructor
  by_cases hself : client = .destructor
  · subst hself
    have hphase : s.destructor = .waiting := h.waits.mpr (by simp [hclient])
    have hrunning : s.stopping = false := by
      by_contra hstopping
      have hstopped := h.stopped (by simpa using hstopping)
      rw [hphase] at hstopped
      cases hstopped
    refine ⟨?_, fun hstopping => ?_, h.exited, fun worker hworker => ?_⟩
    · cases s.firstException <;> simp [State.setClient]
    · have hnever : s.stopping = true := hstopping
      rw [hrunning] at hnever
      cases hnever
    · cases hexception : s.firstException <;>
        simp [hexception, DestructorPhase.hasJoined] at hworker
  · have hmoved : (s.setClient client .idle).Orderly := h.setClient fun heq => absurd heq hself
    refine hmoved.frame ?_ rfl Iff.rfl fun _ => Iff.rfl
    simp [hself, State.setClient]

/-- The notification of a submit keeps the order. -/
theorem State.Orderly.notify {s : State maxThreads Tid Fn Exception} (h : s.Orderly)
    (hcalls : s.clients .destructor ≠ .notifying) {client : Client Tid maxThreads}
    (hclient : s.clients client = .notifying) (target : Option (Fin maxThreads)) :
    State.Orderly { s.setClient client .idle with
      workers := (workCondition Fn Exception).notifyOne s.workers target } := by
  have hself : client ≠ .destructor := by
    rintro rfl
    exact hcalls hclient
  have hmoved : (s.setClient client .idle).Orderly := h.setClient fun heq => absurd heq hself
  refine hmoved.frame rfl rfl Iff.rfl fun worker => ?_
  have hsame := (workCondition Fn Exception).apply_notifyOne (F := fun phase => phase = .exited)
    (fun phase => propext (exited_wake phase)) s.workers target worker
  exact iff_of_eq hsame

/-- Each step keeps the order of the destruction. -/
theorem State.Orderly.step {s next : State maxThreads Tid Fn Exception} (h : s.Orderly)
    (hcalls : s.clients .destructor ≠ .notifying) {action : Action maxThreads Tid Fn Exception}
    (hmove : s.Move action next) : next.Orderly := by
  have hmoves {worker : Fin maxThreads} {phase : WorkerPhase Fn Exception}
      (hbefore : s.workers worker ≠ .exited) (hafter : phase ≠ .exited) :=
    s.exited_setWorker hbefore hafter
  cases hmove with
  | submit client function hcall =>
    have hmoved : (s.setClient client .notifying).Orderly := by
      apply h.setClient
      rintro rfl
      simp [State.mayCall] at hcall
    exact hmoved.frame rfl rfl Iff.rfl fun _ => Iff.rfl
  | notify client target hclient => exact h.notify hcalls hclient target
  | wait client hcall =>
    apply h.setClient
    rintro rfl
    simp [State.mayCall] at hcall
  | pass client hclient _ _ hdestructor => exact h.pass hclient hdestructor
  | sleep client hclient | spuriousDone client hclient =>
    apply h.setClient
    rintro rfl
    simp [hclient]
  | exit worker hphase hstopping =>
    refine ⟨h.waits, h.stopped, fun _ _ => hstopping, fun other hjoined => ?_⟩
    exact threads.update_of_phase_ne (h.joined other hjoined) (by simp [hphase])
  | retire worker task hphase clients hclients =>
    subst hclients
    refine h.frame rfl rfl ?_ (hmoves (by simp [hphase]) (by simp))
    dsimp only
    split
    · unfold condition_variable.Waiters.notifyAll
      cases s.clients .destructor <;> simp [doneCondition]
    · rfl
  | block _ hphase | dequeue _ _ _ hphase | invoke _ _ hphase | record _ _ _ hphase
  | returns _ _ hphase | throws _ _ _ hphase | spuriousWork _ hphase =>
    exact h.frame rfl rfl Iff.rfl (hmoves (by simp [hphase]) (by simp))
  | destruct hphase =>
    refine ⟨by simp [State.setClient], fun hstopping => ?_, h.exited, ?_⟩
    · have hstopped := h.stopped hstopping
      rw [hphase] at hstopped
      cases hstopped
    · simp [DestructorPhase.hasJoined]
  | stop hphase => exact h.stop hphase
  | wake hphase => exact h.wake hphase
  | join worker hphase hexited => exact h.join hphase hexited
  | destroy index hphase hall => exact h.destroy hphase hall

/-- The destruction is orderly in every reachable state. -/
theorem State.orderly_of_reachable [Fintype Tid] {s : State maxThreads Tid Fn Exception}
    (hreach : (poolMachine maxThreads Tid Fn Exception).Reachable s) : s.Orderly := by
  refine transition.Machine.ReachableBy.invariant ?_ ?_ hreach
  · rintro s rfl
    exact ⟨by simp, by simp, by simp, by simp [DestructorPhase.hasJoined]⟩
  · intro s action next hs h _ hstep
    exact h.step (State.noLostWakeUp_of_reachable hs.reachable).destructor (State.move_of_step hstep).2

end spdlogger.thread_pool
