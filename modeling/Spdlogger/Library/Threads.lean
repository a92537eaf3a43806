import Mathlib.Algebra.BigOperators.Group.Finset.Piecewise

namespace threads

/-- A thread in a phase that the moving thread is not in stays where it is. -/
theorem update_of_phase_ne {ι φ : Type*} [DecidableEq ι] {f : ι → φ} {i mover : ι} {phase next : φ}
    (hphase : f i = phase) (hmover : f mover ≠ phase) : Function.update f mover next i = phase := by
  have hother : i ≠ mover := by
    rintro rfl
    exact hmover hphase
  rw [Function.update_of_ne hother, hphase]

/-- A phase that the moving thread does not enter is one a thread was in before. -/
theorem phase_of_update {ι φ : Type*} [DecidableEq ι] {f : ι → φ} {i mover : ι} {phase next : φ}
    (hphase : Function.update f mover next i = phase) (hnext : next ≠ phase) : f i = phase := by
  by_cases hmover : i = mover
  · rw [hmover, Function.update_self] at hphase
    exact absurd hphase hnext
  · rwa [Function.update_of_ne hmover] at hphase

/-- A thread that neither was in a phase nor gets into it makes no difference to
whether one is in it. -/
theorem exists_update_iff {ι φ : Type*} [DecidableEq ι] {f : ι → φ} {mover : ι} {phase next : φ}
    (hmover : f mover ≠ phase) (hnext : next ≠ phase) :
    (∃ i, Function.update f mover next i = phase) ↔ ∃ i, f i = phase := by
  constructor
  · rintro ⟨i, hphase⟩
    exact ⟨i, phase_of_update hphase hnext⟩
  · rintro ⟨i, hphase⟩
    exact ⟨i, update_of_phase_ne hphase hmover⟩

/-- Moving one thread to another phase exchanges its contribution to a total
taken over all threads. -/
theorem sum_update_add {ι φ M : Type*} [Fintype ι] [DecidableEq ι] [AddCommMonoid M]
    (F : φ → M) (f : ι → φ) (i : ι) (x : φ) :
    (∑ j, F (Function.update f i x j)) + F (f i) = (∑ j, F (f j)) + F x := by
  have hupdate (j : ι) : F (Function.update f i x j) = Function.update (F ∘ f) i (F x) j := by
    by_cases h : j = i
    · subst h
      simp
    · simp [h]
  simp only [hupdate]
  rw [Finset.sum_update_of_mem (Finset.mem_univ i), Finset.sdiff_singleton_eq_erase,
    ← Finset.add_sum_erase Finset.univ (fun j => F (f j)) (Finset.mem_univ i)]
  simp only [Function.comp_apply]
  rw [add_assoc, add_comm (F x), add_comm (F (f i))]

/-- The number of threads in a phase with the given property. -/
def count {ι φ : Type*} [Fintype ι] (p : φ → Bool) (f : ι → φ) : Nat :=
  ∑ j, if p (f j) then 1 else 0

/-- A thread that moves is counted where it comes to and no longer where it was. -/
theorem count_update {ι φ : Type*} [Fintype ι] [DecidableEq ι] (p : φ → Bool) (f : ι → φ) (i : ι)
    (x : φ) : count p (Function.update f i x) + (if p (f i) then 1 else 0) =
      count p f + if p x then 1 else 0 :=
  sum_update_add (fun phase => if p phase then 1 else 0) f i x

/-- The count depends on the property alone. -/
theorem count_congr {ι φ : Type*} [Fintype ι] {p : φ → Bool} {f g : ι → φ}
    (h : ∀ i, p (f i) = p (g i)) : count p f = count p g := by
  unfold count
  exact Finset.sum_congr rfl fun i _ => by rw [h i]

end threads
