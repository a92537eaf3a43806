import Spdlogger.ThreadPool.BoundedBooks
import Spdlogger.ThreadPool.Rethrown

namespace spdlogger.thread_pool

variable {maxThreads : Nat} {Exception : Type} {tasks : List (Option Exception)}

/-- A wake-up without a notification. -/
def Action.isSpurious {Tid Fn : Type} : Action maxThreads Tid Fn Exception → Bool
  | .spuriousDone _ | .spuriousWork _ => true
  | _ => false

/-- The client has begun its `wait`. -/
def State.Awaited (s : State maxThreads Unit (Option Exception) Exception) : Prop :=
  (s.clients (.caller ())).inWait ∨ ∃ result, .waited result ∈ s.log

/-- Below 2^31 the id of a task is its number. -/
theorem taskId_toNat {k : Nat} (hk : k < 2 ^ 31) : (taskId k).toNat = k := by
  unfold taskId
  rw [Int.bmod_eq_of_le (by omega) (by omega)]
  omega

/-- A result is shown once a `wait` has come back. -/
theorem returned_isSome_iff {log : List (LogEntry Exception)} :
    (log.findSome? LogEntry.result).isSome ↔ ∃ result, .waited result ∈ log := by
  rw [List.findSome?_isSome_iff]
  constructor
  · rintro ⟨entry, hentry, hresult⟩
    cases entry with
    | waited result => exact ⟨result, hentry⟩
    | caught | finished => cases hresult
  · exact fun ⟨result, hresult⟩ => ⟨_, hresult, rfl⟩

/-- The result shown is that of the first `wait`. -/
theorem returned_eq_some_iff {log : List (LogEntry Exception)} {before : List (LogEntry Exception)}
    {result returned : Option Exception} (hlog : log = before ++ [.waited result])
    (hfirst : ∀ other, .waited other ∉ before) :
    log.findSome? LogEntry.result = some returned ↔ returned = result := by
  have hnone : before.findSome? LogEntry.result = none := by
    rw [List.findSome?_eq_none_iff]
    intro entry hentry
    cases entry with
    | waited other => exact absurd hentry (hfirst other)
    | caught | finished => rfl
  rw [hlog, List.findSome?_append, hnone]
  simp [LogEntry.result, eq_comm]

/-- Without a rethrow before, the round of a `wait` is all there is. -/
theorem sinceRethrow_of_first {log : List (LogEntry Exception)}
    (hfirst : ∀ other, .waited other ∉ log) : sinceRethrow log = log := by
  unfold sinceRethrow
  obtain hall | ⟨earlier, mark, hmark, hsplit⟩ := history.exists_append_since LogEntry.isRethrow log
  · exact hall.symm
  · have hmem : mark ∈ log := hsplit ▸ List.mem_append_right _ (List.mem_cons_self ..)
    cases mark with
    | waited other => exact absurd hmem (hfirst other)
    | caught | finished => cases hmark

/-- A client that calls the pool is another one than the one in `wait`, and a
client in `wait` leaves it by an entry in the log. -/
theorem State.inWait_step {s next : State maxThreads Unit (Option Exception) Exception}
    {client : Client Unit maxThreads} (hwait : (s.clients client).inWait)
    {action : Action maxThreads Unit (Option Exception) Exception}
    (hstep : s.step action = some next) :
    (next.clients client).inWait ∨ ∃ result, .waited result ∈ next.log := by
  have hother {other : Client Unit maxThreads} {phase : ClientPhase}
      (hmove : (s.clients other).inWait = false ∨ phase.inWait) :
      (Function.update s.clients other phase client).inWait := by
    by_cases hself : client = other
    · subst hself
      rw [Function.update_self]
      exact hmove.resolve_left (by simp [hwait])
    · rw [Function.update_of_ne hself]
      exact hwait
  cases (State.move_of_step hstep).2 with
  | submit caller function hcall =>
    simp only [State.mayCall, Bool.and_eq_true, decide_eq_true_eq] at hcall
    exact .inl (hother (.inl (by rw [hcall.1]; rfl)))
  | notify caller target hnotifying => exact .inl (hother (.inl (by rw [hnotifying]; rfl)))
  | wait | sleep | spuriousDone | destruct => exact .inl (hother (.inr rfl))
  | pass => exact .inr ⟨s.firstException, List.mem_append_right _ (List.mem_singleton_self _)⟩
  | retire worker task hphase clients hclients =>
    subst hclients
    left
    dsimp only
    split
    · exact (inWait_wake _).trans hwait
    · exact hwait
  | block | exit | dequeue | invoke | record | returns | throws | spuriousWork | stop | wake | join
  | destroy => exact .inl hwait

/-- So a `wait` that has begun is not begun again. -/
theorem State.Awaited.step {s next : State maxThreads Unit (Option Exception) Exception}
    (h : s.Awaited) {action : Action maxThreads Unit (Option Exception) Exception}
    (hstep : s.step action = some next) : next.Awaited := by
  obtain hwait | ⟨result, hresult⟩ := h
  · exact State.inWait_step hwait hstep
  · refine .inr ⟨result, ?_⟩
    cases ExceptionMove.of_step hstep with
    | quiet hlog => exact hlog ▸ hresult
    | caught _ _ _ _ _ hlog | retired _ _ _ _ hlog | waited _ hlog =>
      rw [hlog]
      exact List.mem_append_left _ hresult

instance (s : State maxThreads Unit (Option Exception) Exception) : Decidable s.Awaited :=
  decidable_of_iff ((s.clients (.caller ())).inWait ∨ (s.log.findSome? LogEntry.result).isSome)
    (or_congr_right returned_isSome_iff)

/-- The calls the client has still to make. -/
def State.callsLeft (tasks : List (Option Exception))
    (s : State maxThreads Unit (Option Exception) Exception) : Nat :=
  tasks.length - s.submitted.length + if s.Awaited then 0 else 1

/-- No step gives the client more calls to make. -/
theorem State.callsLeft_le {s next : State maxThreads Unit (Option Exception) Exception}
    {action : Action maxThreads Unit (Option Exception) Exception}
    (hstep : s.step action = some next) : next.callsLeft tasks ≤ s.callsLeft tasks := by
  have hsubmitted : s.submitted <+: next.submitted := by
    cases ExceptionMove.of_step hstep <;> assumption
  have hlength := hsubmitted.length_le
  unfold State.callsLeft
  by_cases hawaited : s.Awaited
  · rw [if_pos hawaited, if_pos (hawaited.step hstep)]
    omega
  · rw [if_neg hawaited]
    split <;> omega

variable [DecidableEq Exception]

/-- Both calls draw on what is left of them. -/
theorem State.callsLeft_lt (hcount : tasks.length < 2 ^ 31)
    {s next : State maxThreads Unit (Option Exception) Exception}
    (hreach : (boundedRound maxThreads tasks).Reachable s)
    {action : Action maxThreads Unit (Option Exception) Exception}
    (hbounded : (!action.isSpurious) = true) (hcall : action.isProgress = false)
    (hstep : (boundedRound maxThreads tasks).step s action = some next) :
    next.callsLeft tasks < s.callsLeft tasks := by
  have hbooked := State.booked_of_reachable hcount hreach
  obtain ⟨hallowed, hpool⟩ := transition.Machine.restrict_step_iff.mp hstep
  have hearly {client : Client Unit maxThreads} (hcaller : s.mayCall client)
      (hself : client = .caller ()) (hnever : ∀ result, .waited result ∉ s.log) : ¬ s.Awaited := by
    simp only [State.mayCall, Bool.and_eq_true, decide_eq_true_eq, hself] at hcaller
    rintro (hwait | ⟨result, hresult⟩)
    · rw [hcaller.1] at hwait
      cases hwait
    · exact hnever result hresult
  cases (State.move_of_step hpool).2 with
  | submit client function hcaller =>
    simp only [boundedAllowed, Bool.and_eq_true, decide_eq_true_eq] at hallowed
    obtain ⟨hself, hnext⟩ := hallowed
    obtain ⟨hlt, _⟩ := List.getElem?_eq_some_iff.mp hnext
    have hbefore := hearly hcaller hself fun result hresult =>
      absurd (hbooked.ended result hresult).1.submitted (by omega)
    unfold State.callsLeft
    rw [if_neg hbefore]
    simp only [List.length_append, List.length_singleton]
    split <;> omega
  | wait client hcaller =>
    simp only [boundedAllowed, Bool.and_eq_true, decide_eq_true_eq, Option.isNone_iff_eq_none,
      List.findSome?_eq_none_iff] at hallowed
    obtain ⟨⟨hself, _⟩, hnone⟩ := hallowed
    have hbefore := hearly hcaller hself fun result hresult => by cases hnone _ hresult
    have hawaited : (s.setClient client .waiting).Awaited := by
      left
      rw [hself, State.clients_setClient, Function.update_self]
      rfl
    unfold State.callsLeft
    rw [if_neg hbefore, if_pos hawaited]
    exact Nat.lt_succ_self _
  | spuriousDone | spuriousWork => cases hbounded
  | _ => cases hcall

/-- The round comes to its end, but for spurious wake-ups. -/
theorem bounded_usesUp (hcount : tasks.length < 2 ^ 31) :
    ∃ remaining cost, (boundedRound maxThreads tasks).UsesUp (fun a => !a.isSpurious) remaining cost := by
  refine ⟨_, _, (usesUp.restrict (boundedAllowed tasks)).of_supply (State.callsLeft tasks) ?_ ?_ ?_⟩
  · intro action hprogress
    cases action with
    | spuriousDone | spuriousWork => cases hprogress
    | _ => rfl
  · intro s action next hreach hbounded hcall hstep
    exact State.callsLeft_lt hcount hreach hbounded hcall hstep
  · intro s action next _ hstep
    exact State.callsLeft_le (transition.Machine.restrict_step_iff.mp hstep).2

/-- When nothing but spurious wake-ups can happen, the client is through. -/
theorem returned_of_quiescent (hpositive : 0 < maxThreads) (hcount : tasks.length < 2 ^ 31)
    {s : State maxThreads Unit (Option Exception) Exception}
    (hreach : (boundedRound maxThreads tasks).Reachable s)
    (hrest : (boundedRound maxThreads tasks).Quiescent (fun a => !a.isSpurious) s) :
    ∃ result, .waited result ∈ s.log := by
  have hbooked := State.booked_of_reachable hcount hreach
  have hpool := hreach.of_restrict
  have hnone (action : Action maxThreads Unit (Option Exception) Exception)
      (hbounded : action.isSpurious = false) (hallowed : boundedAllowed tasks s action = true) :
      s.step action = none := by
    have hstep := hrest action (by simp [hbounded])
    simpa [boundedRound, transition.Machine.restrict, hallowed, poolMachine] using hstep
  simp only [State.step, hbooked.live, reduceCtorEq, if_false] at hnone
  have hatRest : s.AtRest := by
    refine ⟨fun worker => hnone (.workerStep worker) rfl rfl, ?_,
      fun client target => hnone (.notify client target) rfl rfl,
      fun client => hnone (.testDone client) rfl rfl⟩
    intro worker task hphase hidle
    cases hfunction : task.function with
    | none =>
      have hends := hnone (.returns worker) rfl (by simp [boundedAllowed, hphase, hfunction])
      simp [State.endTask, hphase, hidle] at hends
    | some exception =>
      have hends := hnone (.throws worker exception) rfl (by simp [boundedAllowed, hphase, hfunction])
      simp [State.endTask, hphase, hidle] at hends
  have hactive : s.stopping = false := by
    by_contra hstopping
    have hstopped := (State.orderly_of_reachable hpool).stopped (by simpa using hstopping)
    rw [hbooked.live] at hstopped
    cases hstopped
  have hidle : s.clients (.caller ()) = .idle := by
    refine hatRest.idle hpool hpositive (fun worker => ?_) hactive (.caller ())
    simp [hbooked.others (.task worker)]
  by_contra hunreturned
  have hlength := hbooked.taken.length_le
  rw [List.length_map] at hlength
  by_cases hall : s.submitted.length = tasks.length
  · have hreturned : s.log.findSome? LogEntry.result = none := by
      rw [← Option.not_isSome_iff_eq_none, returned_isSome_iff]
      exact hunreturned
    have hstep := hnone (.wait (.caller ())) rfl (by simp [boundedAllowed, hall, hreturned])
    simp [State.mayCall, hidle] at hstep
  · have hlt : s.submitted.length < tasks.length := lt_of_le_of_ne hlength hall
    have hstep := hnone (.submit (.caller ()) tasks[s.submitted.length]) rfl
      (by simp [boundedAllowed, hlt])
    simp [State.submit, State.mayCall, hidle] at hstep

omit [DecidableEq Exception] in
/-- In a pool that is over, the ids in the books are those of the round. -/
theorem State.Over.ids {s : State maxThreads Unit (Option Exception) Exception}
    (h : s.Over tasks) (haccounts : s.Accounts) (hcount : tasks.length < 2 ^ 31) :
    s.dequeued = s.submitted ∧ s.invoked.Perm (s.submitted.map QueuedTask.id) ∧
      s.finished.Perm (s.submitted.map QueuedTask.id) ∧
      (s.submitted.map QueuedTask.id).map Int.toNat = List.range tasks.length := by
  obtain ⟨hnumbered, hsettled⟩ := haccounts
  have hsettled := hsettled (hnumbered.distinctIds (by rw [h.submitted]; exact hcount))
  have hdequeued : s.dequeued = s.submitted := by
    rw [← hnumbered.submitted_eq, h.emptied.queue, List.append_nil]
  have hheld : ∑ worker, (s.workers worker).held = 0 :=
    Finset.sum_eq_zero fun worker _ => h.emptied.held worker
  have hpending : ∑ worker, (s.workers worker).pending = 0 := by
    refine Finset.sum_eq_zero fun worker _ => ?_
    exact Multiset.le_zero.mp (h.emptied.held worker ▸ pending_le_held _)
  refine ⟨hdequeued, ?_, ?_, ?_⟩
  · have hinvoked := hsettled.invoked_eq
    rw [hpending, add_zero, hdequeued] at hinvoked
    exact (Multiset.coe_eq_coe.mp hinvoked).symm
  · have hfinished := hsettled.dequeued_eq
    rw [hheld, zero_add, hdequeued] at hfinished
    exact (Multiset.coe_eq_coe.mp hfinished).symm
  · rw [hnumbered.ids_eq, h.submitted, List.map_map]
    have hsame : ∀ k ∈ List.range tasks.length, (Int.toNat ∘ taskId) k = id k := by
      intro k hk
      have hlt : k < 2 ^ 31 := Nat.lt_trans (List.mem_range.mp hk) hcount
      rw [Function.comp_apply, taskId_toNat hlt, id_eq]
    rw [List.map_congr_left hsame, List.map_id]

/-- A pool of any number of workers carries out every round. -/
theorem bounded_delivers (hpositive : 0 < maxThreads) (hcount : tasks.length < 2 ^ 31) :
    Delivers (boundedRound maxThreads tasks) Action.isSpurious State.observe tasks := by
  refine ⟨bounded_usesUp hcount, ?_, ?_⟩
  · intro s hreach hrest hreturned
    have hresult := returned_of_quiescent hpositive hcount hreach hrest
    rw [← returned_isSome_iff] at hresult
    simp only [State.observe] at hreturned
    rw [hreturned] at hresult
    cases hresult
  · intro s result hreach hreturned
    have hbooked := State.booked_of_reachable hcount hreach
    have hhonest := State.honest_of_reachable hreach
    have haccounts := State.accounts_of_reachable hreach.of_restrict
    have hreported := State.reported_of_reachable hreach.of_restrict
    simp only [State.observe] at hreturned
    obtain ⟨found, hfound⟩ := returned_isSome_iff.mp (Option.isSome_of_eq_some hreturned)
    obtain ⟨hover, before, hlog, hfirst⟩ := hbooked.ended found hfound
    obtain rfl := (returned_eq_some_iff hlog hfirst).mp hreturned
    obtain ⟨hdequeued, hinvoked, hfinished, hrange⟩ := hover.ids haccounts hcount
    have hfunctions : s.submitted.map QueuedTask.function = tasks :=
      hbooked.taken.eq_of_length (by rw [List.length_map, hover.submitted])
    have hround : result = (recorded s.log).head? := by
      have hends := hreported.rounds before (.waited result) [] hlog result rfl
      rw [sinceRethrow_of_first hfirst] at hends
      rw [hends, hlog, recorded_append]
      simp [recorded, LogEntry.recorded]
    have horigin : ∀ exception, result = some exception → some exception ∈ tasks := by
      intro exception hresult
      have hmem : exception ∈ recorded s.log := by
        rw [hround] at hresult
        exact List.mem_of_mem_head? hresult
      rw [← hfunctions, ← hdequeued]
      exact hhonest.origins exception hmem
    refine ⟨?_, ?_, ⟨?_, ?_⟩, horigin⟩
    · rw [← hrange]
      exact hinvoked.map Int.toNat
    · rw [← hrange]
      exact hfinished.map Int.toNat
    · intro hresult
      obtain ⟨exception, hexception⟩ := Option.ne_none_iff_exists'.mp hresult
      exact ⟨some exception, horigin exception hexception, by simp⟩
    · rintro ⟨task, htask, hthrows⟩ hresult
      rw [← hfunctions] at htask
      obtain ⟨queued, hqueued, rfl⟩ := List.mem_map.mp htask
      have hid : queued.id ∈ s.finished := hfinished.mem_iff.mpr (List.mem_map_of_mem hqueued)
      obtain ⟨found, hmem, hsame, hrecorded⟩ := hhonest.finished queued.id hid
      have hdistinct : (s.submitted.map QueuedTask.id).Nodup :=
        haccounts.numbered.distinctIds (by rw [hover.submitted]; exact hcount)
      obtain rfl := List.inj_on_of_nodup_map hdistinct (hdequeued ▸ hmem) hqueued hsame
      refine hrecorded hthrows ?_
      rw [hround] at hresult
      exact List.head?_eq_none_iff.mp hresult

end spdlogger.thread_pool
