import Spdlogger.ThreadPool.BoundedDelivery
import Spdlogger.ThreadPool.UnlimitedDelivery

namespace spdlogger.thread_pool

variable {Exception : Type} [DecidableEq Exception]

/-- Both modes carry out the same round of a client. -/
def ModesAgree (maxThreads : Nat) (tasks : List (Option Exception)) : Prop :=
  Delivers (boundedRound maxThreads tasks) Action.isSpurious State.observe tasks ∧
    Delivers (unlimited.round tasks) (fun _ => false) unlimited.State.observe tasks

/-- A pool with a worker and a pool without a limit both run every task exactly once, come back
from `wait` after all of them and rethrow if and only if some task threw: exactly for those
tasks of which none throws. -/
theorem modes_agree_iff {maxThreads : Nat} (hpositive : 0 < maxThreads)
    {tasks : List (Option Exception)} (hcount : tasks.length < 2 ^ 31) :
    ModesAgree maxThreads tasks ↔ ∀ task ∈ tasks, task = none := by
  constructor
  · rintro ⟨_, hunlimited⟩
    exact unlimited.delivers_iff.mp hunlimited
  · intro hreturn
    exact ⟨bounded_delivers hpositive hcount, unlimited.delivers_iff.mpr hreturn⟩

/-- Two tasks that return, on a pool with two workers. -/
theorem modes_agree_two_tasks : ModesAgree 2 ([none, none] : List (Option Nat)) :=
  (modes_agree_iff (by omega) (by simp)).mpr (by simp)

/-- One task that throws: the bounded pool carries the round out, and the process
of the other one is gone before `wait` is back. -/
theorem exists_modes_differ :
    Delivers (boundedRound 1 [some 7]) Action.isSpurious State.observe [some 7] ∧
      (∃ s, (unlimited.round [some 7]).Reachable s ∧ s.terminated ∧ s.observe.returned = none) ∧
      ¬ Delivers (unlimited.round [some 7]) (fun _ => false) unlimited.State.observe [some 7] := by
  obtain ⟨s, hreach, hcheck⟩ := transition.Machine.exists_reachable_of_run
    (M := unlimited.round [some 7]) (s := {}) rfl [.submit (some 7), .wait, .invoke 0, .throws 0 7]
    (fun s => s.terminated && s.observe.returned = none) (by decide)
  simp only [Bool.and_eq_true, decide_eq_true_eq] at hcheck
  obtain ⟨hterminated, hreturned⟩ := hcheck
  refine ⟨bounded_delivers (by omega) (by simp), ⟨s, hreach, hterminated, hreturned⟩, ?_⟩
  intro hdelivers
  refine hdelivers.returns s hreach (fun action _ => ?_) hreturned
  simp [unlimited.round, transition.Machine.restrict, unlimited.poolMachine, unlimited.State.step,
    hterminated]

end spdlogger.thread_pool
