import Mathlib.Algebra.Order.BigOperators.Group.Finset
import Spdlogger.Library.Threads

namespace condition_variable

/-- How the phases of a family of threads look to a condition variable: in some
a thread is blocked on it, and a wake-up takes it out of these and leaves the
others alone. -/
structure Waiters (φ : Type*) where
  blocked : φ → Bool
  wake : φ → φ
  not_blocked_wake : ∀ phase, blocked (wake phase) = false
  wake_of_not_blocked : ∀ phase, blocked phase = false → wake phase = phase

namespace Waiters

variable {ι φ : Type*} [DecidableEq ι] (W : Waiters φ)

omit [DecidableEq ι] in
/-- What `notify_one` may pick: one of the blocked threads, or none if there is none. -/
def Picks (f : ι → φ) : Option ι → Prop
  | some i => W.blocked (f i) = true
  | none => ∀ i, W.blocked (f i) = false

instance [Fintype ι] (f : ι → φ) : DecidablePred (W.Picks f)
  | some i => inferInstanceAs (Decidable (W.blocked (f i) = true))
  | none => inferInstanceAs (Decidable (∀ i, W.blocked (f i) = false))

omit [DecidableEq ι] in
/-- A notification always has something to pick. -/
theorem exists_picks (f : ι → φ) : ∃ target, W.Picks f target := by
  by_cases hasleep : ∃ i, W.blocked (f i) = true
  · obtain ⟨i, hi⟩ := hasleep
    exact ⟨some i, hi⟩
  · exact ⟨none, fun i => by simpa using fun hi => hasleep ⟨i, hi⟩⟩

/-- `notify_one`: the thread that is picked, if there is one, is woken. -/
def notifyOne (f : ι → φ) : Option ι → ι → φ
  | some i => Function.update f i (W.wake (f i))
  | none => f

@[simp] theorem notifyOne_some (f : ι → φ) (i : ι) :
    W.notifyOne f (some i) = Function.update f i (W.wake (f i)) := rfl

@[simp] theorem notifyOne_none (f : ι → φ) : W.notifyOne f none = f := rfl

/-- `notify_all`: every thread that is blocked is woken. -/
def notifyAll (f : ι → φ) : ι → φ := fun i => W.wake (f i)

omit [DecidableEq ι] in
/-- Nobody is blocked behind a `notify_all`. -/
@[simp] theorem blocked_notifyAll (f : ι → φ) (i : ι) : W.blocked (W.notifyAll f i) = false :=
  W.not_blocked_wake (f i)

/-- What a wake-up does not change in any thread, it does not change in one. -/
theorem apply_notifyOne {M : Type*} {F : φ → M} (hwake : ∀ phase, F (W.wake phase) = F phase)
    (f : ι → φ) (target : Option ι) (i : ι) : F (W.notifyOne f target i) = F (f i) := by
  cases target with
  | none => rfl
  | some j =>
    rw [notifyOne_some]
    by_cases h : i = j
    · rw [h, Function.update_self, hwake]
    · rw [Function.update_of_ne h]

/-- A thread that is blocked after a notification was blocked before it. -/
theorem blocked_of_notifyOne {f : ι → φ} {target : Option ι} {i : ι}
    (h : W.blocked (W.notifyOne f target i) = true) : W.notifyOne f target i = f i := by
  cases target with
  | none => rfl
  | some j =>
    rw [notifyOne_some] at h ⊢
    by_cases hij : i = j
    · rw [hij, Function.update_self, W.not_blocked_wake] at h
      cases h
    · rw [Function.update_of_ne hij]

variable [Fintype ι] {p : φ → Bool}

/-- A notification with a blocked thread to pick adds one thread to those awake. -/
theorem count_notifyOne {f : ι → φ} {target : Option ι} (hpick : W.Picks f target)
    (hp : ∀ phase, W.blocked phase = true → p phase = false ∧ p (W.wake phase) = true)
    {i : ι} (hblocked : W.blocked (f i) = true) :
    threads.count p (W.notifyOne f target) = threads.count p f + 1 := by
  cases target with
  | none =>
    have hnone := hpick i
    rw [hblocked] at hnone
    cases hnone
  | some j =>
    obtain ⟨hasleep, hawake⟩ := hp (f j) hpick
    have hcount := threads.count_update p f j (W.wake (f j))
    rw [hasleep, hawake] at hcount
    simpa using hcount

omit [DecidableEq ι] in
/-- Where a wake-up adds one step to what a thread has left, waking all adds one for each. -/
theorem sum_notifyAll_le {remaining : φ → Nat}
    (hwake : ∀ phase, remaining (W.wake phase) ≤ remaining phase + 1) (f : ι → φ) :
    ∑ i, remaining (W.notifyAll f i) ≤ (∑ i, remaining (f i)) + Fintype.card ι := by
  calc ∑ i, remaining (W.notifyAll f i) ≤ ∑ i, (remaining (f i) + 1) :=
        Finset.sum_le_sum fun i _ => hwake (f i)
    _ = (∑ i, remaining (f i)) + Fintype.card ι := by
        simp [Finset.sum_add_distrib]

/-- Waking one adds one. -/
theorem sum_notifyOne_le {remaining : φ → Nat}
    (hwake : ∀ phase, remaining (W.wake phase) ≤ remaining phase + 1) (f : ι → φ)
    (target : Option ι) : ∑ i, remaining (W.notifyOne f target i) ≤ (∑ i, remaining (f i)) + 1 := by
  cases target with
  | none => exact Nat.le_succ _
  | some j =>
    have hsum := threads.sum_update_add remaining f j (W.wake (f j))
    have hone := hwake (f j)
    rw [notifyOne_some]
    omega

end Waiters

end condition_variable
