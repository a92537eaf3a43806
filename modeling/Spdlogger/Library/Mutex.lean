import Mathlib.Logic.Function.Basic

namespace mutex

variable {ι φ : Type*} {holds : φ → Bool} {f : ι → φ} {owner : Option ι}

/-- The owner of the mutex is the one thread whose phase lies inside it. -/
def HeldBy (holds : φ → Bool) (f : ι → φ) (owner : Option ι) : Prop :=
  ∀ i, holds (f i) = true ↔ owner = some i

/-- Two threads do not hold the mutex at once. -/
theorem HeldBy.unique (h : HeldBy holds f owner) {i j : ι} (hi : holds (f i) = true)
    (hj : holds (f j) = true) : i = j := by
  have howner := (h i).mp hi
  rw [(h j).mp hj] at howner
  exact (Option.some.inj howner).symm

/-- A free mutex is held by nobody. -/
theorem HeldBy.free (h : HeldBy holds f none) (i : ι) : holds (f i) = false := by
  cases hi : holds (f i) with
  | false => rfl
  | true => cases (h i).mp hi

/-- Threads that move without entering or leaving the mutex. -/
theorem HeldBy.congr (h : HeldBy holds f owner) {g : ι → φ}
    (hsame : ∀ i, holds (g i) = holds (f i)) : HeldBy holds g owner := by
  intro i
  rw [hsame i]
  exact h i

variable [DecidableEq ι] {i : ι} {phase : φ}

/-- A thread takes the free mutex. -/
theorem HeldBy.lock (h : HeldBy holds f none) (hphase : holds phase = true) :
    HeldBy holds (Function.update f i phase) (some i) := by
  intro j
  by_cases hj : j = i
  · simp [hj, hphase]
  · simp [Function.update_of_ne hj, h.free j, Ne.symm hj]

/-- Its holder gives the mutex up. -/
theorem HeldBy.unlock (h : HeldBy holds f owner) (hbefore : holds (f i) = true)
    (hafter : holds phase = false) : HeldBy holds (Function.update f i phase) none := by
  intro j
  by_cases hj : j = i
  · simp [hj, hafter]
  · have houtside : holds (f j) ≠ true := fun hinside => hj (h.unique hinside hbefore)
    simpa [Function.update_of_ne hj] using houtside

/-- A thread that does not touch the mutex leaves it as it is. -/
theorem HeldBy.within (h : HeldBy holds f owner) (hbefore : holds (f i) = true)
    (hafter : holds phase = true) : HeldBy holds (Function.update f i phase) owner := by
  apply h.congr
  intro j
  by_cases hj : j = i
  · rw [hj, Function.update_self, hbefore, hafter]
  · rw [Function.update_of_ne hj]

end mutex
