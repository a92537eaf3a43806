import Spdlogger.ThreadPool.BoundedRound

namespace spdlogger.thread_pool

variable {maxThreads : Nat} {Exception : Type} {tasks : List (Option Exception)}

/-- The client is inside `wait`. -/
def ClientPhase.inWait : ClientPhase → Bool
  | .waiting | .blocked => true
  | .idle | .notifying => false

theorem inWait_wake (phase : ClientPhase) : (doneCondition.wake phase).inWait = phase.inWait := by
  cases phase <;> rfl

/-- Everyone is out of the pool, and it has nothing left to do. -/
structure State.Over (tasks : List (Option Exception))
    (s : State maxThreads Unit (Option Exception) Exception) : Prop where
  submitted : s.submitted.length = tasks.length
  idle : ∀ client, s.clients client = .idle
  emptied : s.Emptied

/-- The books of the round. The client is the only one in the pool; it waits once
all tasks are submitted; and when its `wait` is back, the round is over. -/
structure State.Booked (tasks : List (Option Exception))
    (s : State maxThreads Unit (Option Exception) Exception) : Prop where
  taken : s.submitted.map QueuedTask.function <+: tasks
  others : ∀ client, client ≠ .caller () → s.clients client = .idle
  live : s.destructor = .live
  waiting : (s.clients (.caller ())).inWait →
    s.submitted.length = tasks.length ∧ ∀ result, .waited result ∉ s.log
  ended : ∀ result, .waited result ∈ s.log → s.Over tasks ∧
    ∃ before, s.log = before ++ [.waited result] ∧ ∀ other, .waited other ∉ before

/-- Only the one client is in the pool. -/
theorem State.Booked.caller {s : State maxThreads Unit (Option Exception) Exception}
    (h : s.Booked tasks) {client : Client Unit maxThreads} (hclient : s.clients client ≠ .idle) :
    client = .caller () := by
  by_contra hother
  exact hclient (h.others client hother)

/-- Steps that neither submit nor begin or end a `wait`. -/
theorem State.Booked.frame {s next : State maxThreads Unit (Option Exception) Exception}
    (h : s.Booked tasks) (hsubmitted : next.submitted = s.submitted)
    (hdestructor : next.destructor = s.destructor)
    (hidle : ∀ client, s.clients client = .idle → next.clients client = .idle)
    (hwait : (next.clients (.caller ())).inWait → (s.clients (.caller ())).inWait)
    (hlog : ∀ result, .waited result ∈ next.log → .waited result ∈ s.log)
    (hover : s.Over tasks → next.log = s.log ∧ next.Emptied) : next.Booked tasks := by
  refine ⟨?_, ?_, hdestructor.trans h.live, fun hinside => ?_, fun result hresult => ?_⟩
  · rw [hsubmitted]
    exact h.taken
  · exact fun client hother => hidle client (h.others client hother)
  · obtain ⟨hall, hnone⟩ := h.waiting (hwait hinside)
    rw [hsubmitted]
    exact ⟨hall, fun result hresult => hnone result (hlog result hresult)⟩
  · obtain ⟨hbooks, before, hsplit, hfirst⟩ := h.ended result (hlog result hresult)
    obtain ⟨hsame, hemptied⟩ := hover hbooks
    refine ⟨⟨?_, fun client => hidle client (hbooks.idle client), hemptied⟩, before, ?_, hfirst⟩
    · rw [hsubmitted]
      exact hbooks.submitted
    · rw [hsame, hsplit]

/-- A worker that retires its task wakes the client without taking it out of its `wait`. -/
theorem State.Booked.retire {s : State maxThreads Unit (Option Exception) Exception}
    (h : s.Booked tasks) {worker : Fin maxThreads} {task : QueuedTask (Option Exception)}
    (hphase : s.workers worker = .retiring task) {clients : Client Unit maxThreads → ClientPhase}
    (hclients : clients = if s.queuedTasks.isEmpty && s.inProgressTasks.erase task.id = ∅ then
      doneCondition.notifyAll s.clients else s.clients) :
    State.Booked tasks { s.setWorker worker .acquiring with
      inProgressTasks := s.inProgressTasks.erase task.id
      clients
      finished := s.finished ++ [task.id]
      log := s.log ++ [.finished task.id] } := by
  subst hclients
  refine h.frame rfl rfl ?_ ?_ (by simp) fun hover => ?_
  · intro client hidle
    dsimp only
    split
    · show doneCondition.wake (s.clients client) = .idle
      rw [hidle]
      rfl
    · exact hidle
  · dsimp only
    split
    · show (doneCondition.wake (s.clients (.caller ()))).inWait → _
      rw [inWait_wake]
      exact id
    · exact id
  · exact absurd hover.emptied (State.not_emptied worker (by simp [hphase]))

/-- The client moves on within its calls. -/
theorem State.Booked.setClient {s : State maxThreads Unit (Option Exception) Exception}
    (h : s.Booked tasks) {client : Client Unit maxThreads} (hclient : s.clients client ≠ .idle)
    {phase : ClientPhase} (hphase : phase.inWait → (s.clients client).inWait)
    {workers : Fin maxThreads → WorkerPhase (Option Exception) Exception} :
    State.Booked tasks { s.setClient client phase with workers } := by
  have hself := h.caller hclient
  subst hself
  refine h.frame rfl rfl ?_ ?_ (fun _ => id) fun hover => absurd (hover.idle _) hclient
  · intro other hidle
    have hother : other ≠ .caller () := by
      rintro rfl
      exact hclient hidle
    show Function.update s.clients (.caller ()) phase other = .idle
    rw [Function.update_of_ne hother, hidle]
  · show (Function.update s.clients (.caller ()) phase (.caller ())).inWait → _
    rw [Function.update_self]
    exact hphase

/-- `submit` takes the next task. -/
theorem State.Booked.submit [DecidableEq Exception]
    {s : State maxThreads Unit (Option Exception) Exception} (h : s.Booked tasks)
    {client : Client Unit maxThreads} {function : Option Exception}
    (hallowed : boundedAllowed tasks s (.submit client function)) :
    State.Booked tasks { s.setClient client .notifying with
      nextTaskId := Int.bmod (s.nextTaskId + 1) (2 ^ 32)
      queuedTasks := s.queuedTasks ++ [⟨s.nextTaskId, function⟩]
      submitted := s.submitted ++ [⟨s.nextTaskId, function⟩] } := by
  simp only [boundedAllowed, Bool.and_eq_true, decide_eq_true_eq] at hallowed
  obtain ⟨rfl, hnext⟩ := hallowed
  have hmore : s.submitted.length ≠ tasks.length := by
    intro hall
    simp [hall] at hnext
  refine ⟨?_, ?_, h.live, ?_, fun result hresult => ?_⟩
  · show (s.submitted ++ [_]).map QueuedTask.function <+: tasks
    rw [List.map_append, List.map_singleton]
    exact prefix_concat h.taken (by simpa using hnext)
  · intro other hother
    show Function.update s.clients (.caller ()) _ other = .idle
    rw [Function.update_of_ne hother]
    exact h.others other hother
  · show (Function.update s.clients (.caller ()) .notifying (.caller ())).inWait → _
    rw [Function.update_self]
    exact fun hinside => by cases hinside
  · exact absurd (h.ended result hresult).1.submitted hmore

/-- `wait` begins when everything is submitted. -/
theorem State.Booked.wait [DecidableEq Exception]
    {s : State maxThreads Unit (Option Exception) Exception} (h : s.Booked tasks)
    {client : Client Unit maxThreads} (hallowed : boundedAllowed tasks s (.wait client)) :
    (s.setClient client .waiting).Booked tasks := by
  simp only [boundedAllowed, Bool.and_eq_true, decide_eq_true_eq, Option.isNone_iff_eq_none,
    List.findSome?_eq_none_iff] at hallowed
  obtain ⟨⟨rfl, hall⟩, hnone⟩ := hallowed
  have hquiet (result : Option Exception) : .waited result ∉ s.log := by
    intro hresult
    have hreturned := hnone _ hresult
    cases hreturned
  refine ⟨h.taken, ?_, h.live, fun _ => ⟨hall, hquiet⟩, fun result hresult => ?_⟩
  · intro other hother
    rw [State.clients_setClient, Function.update_of_ne hother]
    exact h.others other hother
  · exact absurd hresult (hquiet result)

/-- Everything is done, so `wait` comes back to a pool with nothing left in it. -/
theorem State.Booked.return {s : State maxThreads Unit (Option Exception) Exception}
    (h : s.Booked tasks) (hemptied : s.Emptied) {client : Client Unit maxThreads}
    (hclient : s.clients client = .waiting) {destructor : DestructorPhase}
    (hdestructor : destructor = s.destructor) :
    State.Booked tasks { s.setClient client .idle with
      firstException := none, destructor, log := s.log ++ [.waited s.firstException] } := by
  have hbusy : s.clients client ≠ .idle := by simp [hclient]
  have hself := h.caller hbusy
  subst hself
  obtain ⟨hall, hnone⟩ := h.waiting (by simp [hclient, ClientPhase.inWait])
  have hidle (other : Client Unit maxThreads) :
      (s.setClient (.caller ()) .idle).clients other = .idle := by
    rw [State.clients_setClient]
    by_cases hother : other = .caller ()
    · rw [hother, Function.update_self]
    · rw [Function.update_of_ne hother]
      exact h.others other hother
  refine ⟨h.taken, fun other _ => hidle other, hdestructor.trans h.live, ?_, ?_⟩
  · intro hinside
    have hself := hidle (.caller ())
    rw [State.clients_setClient] at hself
    simp [State.setClient, ClientPhase.inWait] at hinside
  · intro result hresult
    have hlast : result = s.firstException := by
      obtain hearlier | hnew := List.mem_append.mp hresult
      · exact absurd hearlier (hnone result)
      · simpa using hnew
    subst hlast
    exact ⟨⟨hall, hidle, ⟨hemptied.queue, hemptied.held⟩⟩, s.log, rfl, hnone⟩

variable [DecidableEq Exception]

/-- Each step keeps the books of the round. -/
theorem State.Booked.step {s next : State maxThreads Unit (Option Exception) Exception}
    (h : s.Booked tasks) (hreach : (poolMachine maxThreads Unit (Option Exception) Exception).Reachable s)
    (hdistinct : s.DistinctIds) {action : Action maxThreads Unit (Option Exception) Exception}
    (hallowed : boundedAllowed tasks s action) (hstep : s.step action = some next) :
    next.Booked tasks := by
  have hemptied (hcall : ∀ client function, action ≠ .submit client function)
      (hlog : next.log = s.log) (hover : s.Over tasks) : next.log = s.log ∧ next.Emptied :=
    ⟨hlog, hover.emptied.step hcall hstep⟩
  cases (State.move_of_step hstep).2 with
  | submit => exact h.submit hallowed
  | wait => exact h.wait hallowed
  | notify client target hclient => exact h.setClient (by simp [hclient]) (by simp [ClientPhase.inWait])
  | pass client hclient hdone destructor hdestructor =>
    have hbusy : s.clients client ≠ .idle := by simp [hclient]
    have hsettled := (State.accounts_of_reachable hreach).settled hdistinct
    refine h.return (hsettled.emptied_of_allDone hdone) hclient ?_
    rw [hdestructor, h.caller hbusy, if_neg (by simp)]
  | sleep client hclient | spuriousDone client hclient =>
    exact h.setClient (by simp [hclient]) (by simp [hclient, ClientPhase.inWait])
  | record worker task exception hphase =>
    refine h.frame rfl rfl (fun _ => id) id (by simp) fun hover => ?_
    exact absurd hover.emptied (State.not_emptied worker (by simp [hphase]))
  | retire worker task hphase clients hclients => exact h.retire hphase hclients
  | block | exit | dequeue | invoke | returns | throws | spuriousWork =>
    exact h.frame rfl rfl (fun _ => id) id (fun _ => id) (hemptied (by simp) rfl)
  | destruct | stop | wake | join | destroy => cases hallowed

/-- The books of the round hold in every reachable state. -/
theorem State.booked_of_reachable (hcount : tasks.length < 2 ^ 31)
    {s : State maxThreads Unit (Option Exception) Exception}
    (hreach : (boundedRound maxThreads tasks).Reachable s) : s.Booked tasks := by
  refine transition.Machine.ReachableBy.invariant (I := State.Booked tasks) ?_ ?_ hreach
  · rintro s rfl
    exact ⟨List.nil_prefix, fun _ _ => rfl, rfl, by simp [ClientPhase.inWait], by simp⟩
  · intro s action next hs h _ hstep
    obtain ⟨hallowed, hstep⟩ := transition.Machine.restrict_step_iff.mp hstep
    have hpool := hs.reachable.of_restrict
    have hlength := h.taken.length_le
    rw [List.length_map] at hlength
    have hdistinct := (State.accounts_of_reachable hpool).numbered.distinctIds (by omega)
    exact h.step hpool hdistinct hallowed hstep

/-- The exceptions of the round come from its tasks, in every reachable state. -/
theorem State.honest_of_reachable {s : State maxThreads Unit (Option Exception) Exception}
    (hreach : (boundedRound maxThreads tasks).Reachable s) : s.Honest := by
  refine transition.Machine.ReachableBy.invariant (I := State.Honest) ?_ ?_ hreach
  · rintro s rfl
    exact ⟨fun _ => trivial, by simp, by simp [recorded]⟩
  · intro s action next _ h _ hstep
    obtain ⟨hallowed, hstep⟩ := transition.Machine.restrict_step_iff.mp hstep
    exact h.step hallowed (State.move_of_step hstep).2

end spdlogger.thread_pool
