import Mathlib.Data.List.Infix
import Spdlogger.Library.Progress

namespace spdlogger.thread_pool

/-- What the thread that uses a pool can see of it: the tasks that were run and
those that are through, numbered in the order of submission, and how its `wait`
came back. -/
structure Observation (Exception : Type) where
  invoked : List Nat
  finished : List Nat
  returned : Option (Option Exception)

/-- A `wait` that came back with the given result has seen to the tasks, each of
which is given by the exception it ends with, if any. -/
structure Observation.Complete {Exception : Type} (self : Observation Exception)
    (tasks : List (Option Exception)) (result : Option Exception) : Prop where
  invoked : self.invoked.Perm (List.range tasks.length)
  finished : self.finished.Perm (List.range tasks.length)
  rethrows : result ≠ none ↔ ∃ task ∈ tasks, task ≠ none
  rethrown : ∀ exception, result = some exception → some exception ∈ tasks

/-- A round of a client, in which it submits the tasks and waits, works out: it is
over after finitely many steps, but for spurious wake-ups; it is over only once
`wait` is back; and then every task has been run exactly once and is through,
with an exception rethrown if and only if some task threw. -/
structure Delivers {State Action Exception : Type} (M : transition.Machine State Action)
    (spurious : Action → Bool) (observe : State → Observation Exception)
    (tasks : List (Option Exception)) : Prop where
  finite : ∃ remaining cost, M.UsesUp (fun a => !spurious a) remaining cost
  returns : ∀ s, M.Reachable s → M.Quiescent (fun a => !spurious a) s → (observe s).returned ≠ none
  complete : ∀ s result, M.Reachable s → (observe s).returned = some result →
    (observe s).Complete tasks result

/-- The client goes through the tasks in their order. -/
theorem prefix_concat {α : Type*} {l tasks : List α} {x : α} (hfirst : l <+: tasks)
    (hx : tasks[l.length]? = some x) : l ++ [x] <+: tasks := by
  obtain ⟨rest, rfl⟩ := hfirst
  rw [List.getElem?_append_right le_rfl, Nat.sub_self] at hx
  cases rest with
  | nil => simp at hx
  | cons y rest =>
    simp only [List.getElem?_cons_zero, Option.some.injEq] at hx
    exact ⟨rest, by simp [hx]⟩

end spdlogger.thread_pool
