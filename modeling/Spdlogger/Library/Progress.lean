import Mathlib.Algebra.Order.Group.Nat
import Spdlogger.Library.Machine

namespace transition.Machine

variable {State Action : Type*}

/-- A quantity that every step of the given kind uses up, and that each step of
another kind replenishes by a bounded amount at most. -/
structure UsesUp (M : Machine State Action) (progress : Action → Bool) (remaining : State → Nat)
    (cost : Nat) : Prop where
  spends : ∀ s a next, M.Reachable s → progress a = true → M.step s a = some next →
    remaining next < remaining s
  replenishes : ∀ s a next, M.Reachable s → progress a = false → M.step s a = some next →
    remaining next ≤ remaining s + cost

/-- Nothing of the given kind can happen. -/
def Quiescent (M : Machine State Action) (progress : Action → Bool) (s : State) : Prop :=
  ∀ a, progress a = true → M.step s a = none

/-- A run of permitted steps takes no more steps of progress than it starts with and is
given on the way. -/
theorem Reachable.countP_le_add {M : Machine State Action} {ok : State → Action → Prop}
    (progress : Action → Bool) (remaining : State → Nat) (cost : Nat)
    (hspends : ∀ s a next, M.Reachable s → ok s a → progress a = true → M.step s a = some next →
      remaining next < remaining s)
    (hreplenishes : ∀ s a next, M.Reachable s → ok s a → progress a = false →
      M.step s a = some next → remaining next ≤ remaining s + cost)
    {s last : State} {schedule : List Action} (hreach : M.Reachable s)
    (hok : M.RunsBy ok s schedule) (hrun : M.run s schedule = some last) :
    schedule.countP progress + remaining last ≤
      remaining s + cost * schedule.countP fun a => !progress a := by
  induction schedule generalizing s with
  | nil =>
    simp only [Machine.run, Option.some.injEq] at hrun
    simp [hrun]
  | cons a rest ih =>
    obtain ⟨next, hstep, hrest⟩ := Option.bind_eq_some_iff.mp hrun
    obtain ⟨hpermitted, hlater⟩ := hok
    have hbound := ih (hreach.step hstep) (hlater next hstep) hrest
    cases ha : progress a with
    | true =>
      have hless := hspends s a next hreach hpermitted ha hstep
      rw [List.countP_cons_of_pos ha, List.countP_cons_of_neg (by simp [ha])]
      omega
    | false =>
      have hmore := hreplenishes s a next hreach hpermitted ha hstep
      rw [List.countP_cons_of_neg (by simp [ha]), List.countP_cons_of_pos (by simp [ha]),
        Nat.mul_add_one]
      omega

/-- The same for all runs of a machine. -/
theorem UsesUp.countP_le {M : Machine State Action} {progress : Action → Bool}
    {remaining : State → Nat} {cost : Nat} (h : M.UsesUp progress remaining cost)
    {s last : State} {schedule : List Action} (hreach : M.Reachable s)
    (hrun : M.run s schedule = some last) :
    schedule.countP progress + remaining last ≤
      remaining s + cost * schedule.countP fun a => !progress a := by
  have hany : M.RunsBy (fun _ _ => True) s schedule := RunsBy.of_forall (fun _ _ _ => trivial) s
  exact hreach.countP_le_add progress remaining cost (fun s a next hs _ => h.spends s a next hs)
    (fun s a next hs _ => h.replenishes s a next hs) hany hrun

/-- The same for runs of permitted steps that never give anything back. -/
theorem Reachable.countP_le {M : Machine State Action} {ok : State → Action → Prop}
    (progress : Action → Bool) (remaining : State → Nat)
    (hspends : ∀ s a next, M.Reachable s → ok s a → progress a = true → M.step s a = some next →
      remaining next < remaining s)
    (hkeeps : ∀ s a next, M.Reachable s → ok s a → progress a = false → M.step s a = some next →
      remaining next ≤ remaining s)
    {s last : State} {schedule : List Action} (hreach : M.Reachable s)
    (hok : M.RunsBy ok s schedule) (hrun : M.run s schedule = some last) :
    schedule.countP progress + remaining last ≤ remaining s := by
  have hbound := hreach.countP_le_add progress remaining 0 hspends hkeeps hok hrun
  rwa [Nat.zero_mul, Nat.add_zero] at hbound

/-- So every state can be brought to rest by steps of progress alone. -/
theorem UsesUp.exists_quiescent {M : Machine State Action} {progress : Action → Bool}
    {remaining : State → Nat} {cost : Nat} (h : M.UsesUp progress remaining cost) {s : State}
    (hreach : M.Reachable s) : ∃ schedule last, (∀ a ∈ schedule, progress a = true) ∧
      M.run s schedule = some last ∧ M.Quiescent progress last := by
  induction hmeasure : remaining s using Nat.strong_induction_on generalizing s with
  | _ measure ih =>
    by_cases hrest : M.Quiescent progress s
    · exact ⟨[], s, by simp, rfl, hrest⟩
    · simp only [Quiescent, not_forall] at hrest
      obtain ⟨a, ha, henabled⟩ := hrest
      obtain ⟨next, hstep⟩ := Option.ne_none_iff_exists'.mp henabled
      have hless := h.spends s a next hreach ha hstep
      obtain ⟨schedule, last, hall, hrun, hquiescent⟩ :=
        ih (remaining next) (hmeasure ▸ hless) (hreach.step hstep) rfl
      refine ⟨a :: schedule, last, ?_, ?_, hquiescent⟩
      · simpa [ha] using hall
      · rw [Machine.run, hstep]
        exact hrun

/-- Without some of the steps there is no more to do. -/
theorem UsesUp.restrict {M : Machine State Action} {progress : Action → Bool}
    {remaining : State → Nat} {cost : Nat} (h : M.UsesUp progress remaining cost)
    (allowed : State → Action → Bool) :
    (M.restrict allowed).UsesUp progress remaining cost where
  spends s a next hreach ha hstep := h.spends s a next hreach.of_restrict ha (restrict_step_iff.mp hstep).2
  replenishes s a next hreach ha hstep :=
    h.replenishes s a next hreach.of_restrict ha (restrict_step_iff.mp hstep).2

/-- Steps that draw on a supply which nothing renews count as progress as well. -/
theorem UsesUp.of_supply {M : Machine State Action} {progress bounded : Action → Bool}
    {remaining : State → Nat} {cost : Nat} (h : M.UsesUp progress remaining cost)
    (supply : State → Nat) (hprogress : ∀ a, progress a = true → bounded a = true)
    (hdraws : ∀ s a next, M.Reachable s → bounded a = true → progress a = false →
      M.step s a = some next → supply next < supply s)
    (hkeeps : ∀ s a next, M.Reachable s → M.step s a = some next → supply next ≤ supply s) :
    M.UsesUp bounded (fun s => remaining s + (cost + 1) * supply s) cost where
  spends s a next hreach ha hstep := by
    cases hown : progress a with
    | true =>
      have hless := h.spends s a next hreach hown hstep
      have hsame := Nat.mul_le_mul_left (cost + 1) (hkeeps s a next hreach hstep)
      omega
    | false =>
      have hmore := h.replenishes s a next hreach hown hstep
      have hdrawn := Nat.mul_le_mul_left (cost + 1) (hdraws s a next hreach ha hown hstep)
      rw [Nat.mul_succ] at hdrawn
      omega
  replenishes s a next hreach ha hstep := by
    have hother : progress a = false := by
      by_contra hown
      rw [hprogress a (by simpa using hown)] at ha
      cases ha
    have hmore := h.replenishes s a next hreach hother hstep
    have hsame := Nat.mul_le_mul_left (cost + 1) (hkeeps s a next hreach hstep)
    omega

end transition.Machine
