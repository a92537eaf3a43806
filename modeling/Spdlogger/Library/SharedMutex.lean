import Mathlib.Data.Finset.Erase
import Mathlib.Data.Finset.Insert
import Mathlib.Logic.Function.Basic

/-- How a thread holds a reader-writer lock. -/
inductive SharedMutex.Mode where
  | free
  | shared
  | exclusive
  deriving DecidableEq, Repr

/-- `std::shared_mutex`, with the threads that hold it. -/
structure SharedMutex (ι : Type*) where
  writer : Option ι := none
  readers : Finset ι := ∅

namespace SharedMutex

variable {ι : Type*} [DecidableEq ι]

/-- `lock` waits until nobody holds the mutex. -/
def lock (m : SharedMutex ι) (i : ι) : Option (SharedMutex ι) :=
  if m.writer = none ∧ m.readers = ∅ then some { m with writer := some i } else none

/-- `unlock`, by the writer. -/
def unlock (m : SharedMutex ι) : SharedMutex ι := { m with writer := none }

/-- `lock_shared` waits until no writer holds the mutex. -/
def lockShared (m : SharedMutex ι) (i : ι) : Option (SharedMutex ι) :=
  if m.writer = none then some { m with readers := insert i m.readers } else none

/-- `unlock_shared`, by one of the readers. -/
def unlockShared (m : SharedMutex ι) (i : ι) : SharedMutex ι :=
  { m with readers := m.readers.erase i }

/-- The owners of the lock are the threads whose code is inside it. -/
structure HeldBy (mode : ι → Mode) (m : SharedMutex ι) : Prop where
  writer : ∀ i, mode i = .exclusive ↔ m.writer = some i
  readers : ∀ i, mode i = .shared ↔ i ∈ m.readers
  apart : m.writer = none ∨ m.readers = ∅

variable {mode : ι → Mode} {m next : SharedMutex ι} {i j : ι}

omit [DecidableEq ι] in
/-- In the beginning nobody holds the mutex. -/
theorem heldBy_free : HeldBy (fun _ : ι => .free) {} :=
  ⟨fun _ => by simp, fun _ => by simp, .inl rfl⟩

omit [DecidableEq ι] in
/-- Nobody is inside together with a writer. -/
theorem HeldBy.free_of_exclusive (h : HeldBy mode m) (hi : mode i = .exclusive) (hne : j ≠ i) :
    mode j = .free := by
  have hwriter := (h.writer i).mp hi
  cases hj : mode j with
  | free => rfl
  | shared =>
    have hmem := (h.readers j).mp hj
    obtain hnone | hempty := h.apart
    · rw [hwriter] at hnone
      cases hnone
    · rw [hempty] at hmem
      simp at hmem
  | exclusive =>
    rw [(h.writer j).mp hj, Option.some.injEq] at hwriter
    exact absurd hwriter hne

omit [DecidableEq ι] in
/-- While there are readers, nobody writes. -/
theorem HeldBy.writer_eq_none (h : HeldBy mode m) (hi : mode i = .shared) : m.writer = none := by
  have hmem := (h.readers i).mp hi
  refine h.apart.resolve_right fun hempty => ?_
  rw [hempty] at hmem
  simp at hmem

/-- A thread that moves without entering or leaving the lock. -/
theorem HeldBy.within (h : HeldBy mode m) {next : Mode} (hsame : next = mode i) :
    HeldBy (Function.update mode i next) m := by
  rw [hsame, Function.update_eq_self]
  exact h

/-- `lock` makes its caller the writer. -/
theorem HeldBy.lock (h : HeldBy mode m) (hlock : m.lock i = some next) :
    HeldBy (Function.update mode i .exclusive) next := by
  simp only [SharedMutex.lock, Option.ite_none_right_eq_some, Option.some.injEq] at hlock
  obtain ⟨⟨hwriter, hreaders⟩, rfl⟩ := hlock
  refine ⟨fun j => ?_, fun j => ?_, .inr hreaders⟩
  · by_cases hj : j = i
    · simp [hj]
    · have hother := h.writer j
      simp [hwriter] at hother
      simp [Function.update_of_ne hj, hother, Ne.symm hj]
  · by_cases hj : j = i
    · simp [hj, hreaders]
    · rw [Function.update_of_ne hj]
      exact h.readers j

/-- `unlock` takes the writer away. -/
theorem HeldBy.unlock (h : HeldBy mode m) (hi : mode i = .exclusive) :
    HeldBy (Function.update mode i .free) m.unlock := by
  refine ⟨fun j => ?_, fun j => ?_, .inl rfl⟩
  · by_cases hj : j = i
    · simp [hj, SharedMutex.unlock]
    · simp [Function.update_of_ne hj, h.free_of_exclusive hi hj, SharedMutex.unlock]
  · have hreaders : m.readers = ∅ := by
      refine h.apart.resolve_left fun hnone => ?_
      rw [(h.writer i).mp hi] at hnone
      cases hnone
    by_cases hj : j = i
    · simp [hj, SharedMutex.unlock, hreaders]
    · rw [Function.update_of_ne hj]
      exact h.readers j

/-- `lock_shared` makes its caller a reader. -/
theorem HeldBy.lockShared (h : HeldBy mode m) (hlock : m.lockShared i = some next) :
    HeldBy (Function.update mode i .shared) next := by
  simp only [SharedMutex.lockShared, Option.ite_none_right_eq_some, Option.some.injEq] at hlock
  obtain ⟨hwriter, rfl⟩ := hlock
  refine ⟨fun j => ?_, fun j => ?_, .inl hwriter⟩
  · by_cases hj : j = i
    · simp [hj, hwriter]
    · rw [Function.update_of_ne hj]
      exact h.writer j
  · by_cases hj : j = i
    · simp [hj]
    · simp [h.readers j, hj]

/-- `unlock_shared` takes one reader away. -/
theorem HeldBy.unlockShared (h : HeldBy mode m) (hi : mode i = .shared) :
    HeldBy (Function.update mode i .free) (m.unlockShared i) := by
  have hnone := h.writer_eq_none hi
  refine ⟨fun j => ?_, fun j => ?_, .inl hnone⟩
  · by_cases hj : j = i
    · simp [hj, SharedMutex.unlockShared, hnone]
    · rw [Function.update_of_ne hj]
      exact h.writer j
  · by_cases hj : j = i
    · simp [hj, SharedMutex.unlockShared]
    · simp [h.readers j, SharedMutex.unlockShared, hj]

end SharedMutex
