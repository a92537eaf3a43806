import Spdlogger.ThreadPool.AtRest

namespace spdlogger.thread_pool

variable {maxThreads : Nat} {Tid Fn Exception : Type}

/-- The steps left once the clients have let go of the pool. A running task may
still submit to it. -/
def Action.FromInside : Action maxThreads Tid Fn Exception → Prop
  | .submit (.task _) _ => True
  | .submit _ _ | .wait _ => False
  | _ => True

/-- No thread is inside the pool, except for tasks inside `submit` and for the destructor. -/
structure State.Released (s : State maxThreads Tid Fn Exception) : Prop where
  callers : ∀ thread, s.clients (.caller thread) = .idle
  tasks : ∀ worker, s.clients (.task worker) = .idle ∨ s.clients (.task worker) = .notifying

/-- In a released pool only the destructor waits. -/
theorem State.Released.waits {s : State maxThreads Tid Fn Exception} (h : s.Released)
    {client : Client Tid maxThreads} (hidle : s.clients client ≠ .idle)
    (hnotifying : s.clients client ≠ .notifying) : client = .destructor := by
  cases client with
  | caller thread => exact absurd (h.callers thread) hidle
  | task worker => exact ((h.tasks worker).elim hidle hnotifying).elim
  | destructor => rfl

/-- A step that leaves the other clients alone leaves the pool released. -/
theorem State.Released.congr {s next : State maxThreads Tid Fn Exception} (h : s.Released)
    (hclients : ∀ client, client ≠ .destructor → next.clients client = s.clients client) :
    next.Released := by
  constructor
  · intro thread
    rw [hclients (.caller thread) (by simp)]
    exact h.callers thread
  · intro worker
    rw [hclients (.task worker) (by simp)]
    exact h.tasks worker

/-- There is nobody to wake in `wait` but the destructor. -/
theorem State.Released.notifyAll {s : State maxThreads Tid Fn Exception} (h : s.Released)
    {client : Client Tid maxThreads} (hother : client ≠ .destructor) :
    doneCondition.notifyAll s.clients client = s.clients client := by
  show doneCondition.wake (s.clients client) = s.clients client
  cases client with
  | caller thread =>
    rw [h.callers thread]
    rfl
  | task worker =>
    obtain hidle | hnotifying := h.tasks worker
    · rw [hidle]
      rfl
    · rw [hnotifying]
      rfl
  | destructor => exact absurd rfl hother

variable [DecidableEq Tid]

/-- A client that leaves, the destructor and the tasks leave the pool released. -/
theorem State.Released.setClient {s : State maxThreads Tid Fn Exception} (h : s.Released)
    {client : Client Tid maxThreads} {phase : ClientPhase} (hphase : phase = .idle ∨
      client = .destructor ∨ (∃ worker, client = .task worker) ∧ phase = .notifying) :
    (s.setClient client phase).Released := by
  constructor
  · intro thread
    by_cases hself : Client.caller thread = client
    · have hidle : phase = .idle := by
        obtain hidle | hdestructor | ⟨⟨worker, htask⟩, _⟩ := hphase
        · exact hidle
        · rw [hdestructor] at hself
          cases hself
        · rw [htask] at hself
          cases hself
      rw [← hself, State.clients_setClient, Function.update_self, hidle]
    · rw [State.clients_setClient, Function.update_of_ne hself]
      exact h.callers thread
  · intro worker
    by_cases hself : Client.task worker = client
    · rw [← hself, State.clients_setClient, Function.update_self]
      obtain hidle | hdestructor | ⟨_, hnotifying⟩ := hphase
      · exact .inl hidle
      · rw [hdestructor] at hself
        cases hself
      · exact .inr hnotifying
    · rw [State.clients_setClient, Function.update_of_ne hself]
      exact h.tasks worker

/-- A released pool stays released. -/
theorem State.Released.step {s next : State maxThreads Tid Fn Exception} (h : s.Released)
    {action : Action maxThreads Tid Fn Exception} (hinside : action.FromInside)
    (hstep : s.step action = some next) : next.Released := by
  cases (State.move_of_step hstep).2 with
  | submit client function =>
    cases client with
    | task worker =>
      have hmoved : (s.setClient (.task worker) .notifying).Released :=
        h.setClient (.inr (.inr ⟨⟨worker, rfl⟩, rfl⟩))
      exact ⟨hmoved.callers, hmoved.tasks⟩
    | caller | destructor => exact hinside.elim
  | notify client | pass client =>
    have hmoved : (s.setClient client .idle).Released := h.setClient (.inl rfl)
    exact ⟨hmoved.callers, hmoved.tasks⟩
  | wait => exact hinside.elim
  | sleep client hclient | spuriousDone client hclient =>
    have hself : client = .destructor := h.waits (by simp [hclient]) (by simp [hclient])
    exact h.setClient (.inr (.inl hself))
  | retire worker task hphase clients hclients =>
    subst hclients
    refine h.congr fun client hother => ?_
    dsimp only
    split
    · exact h.notifyAll hother
    · rfl
  | destruct =>
    refine h.congr fun client hother => ?_
    show (s.setClient .destructor .waiting).clients client = s.clients client
    rw [State.clients_setClient, Function.update_of_ne hother]
  | block | exit | dequeue | invoke | record | returns | throws | spuriousWork | stop | wake | join
  | destroy => exact h.congr fun _ _ => rfl

end spdlogger.thread_pool
