import Mathlib.Algebra.BigOperators.Group.List.Basic
import Mathlib.Algebra.Order.BigOperators.Group.List
import Mathlib.Data.List.Induction
import Mathlib.Tactic.Linarith

namespace spdlogger.timebase

/-- Nanoseconds. -/
def sleepDuration (stress : Bool) : Int := if stress then 100000 else 1000000

/-- A line is logged for every so many samples. -/
def logEvery (stress : Bool) : Nat := if stress then 64 else 16

/-- What the clock shows before and after one sleep, in nanoseconds. -/
structure Sample where
  t1 : Int
  t2 : Int

/-- The difference of the two readings of the clock. -/
def Sample.elapsed (sample : Sample) : Int := sample.t2 - sample.t1

/-- `duration_cast` to microseconds. -/
def Sample.us (sample : Sample) : Int := sample.elapsed.tdiv 1000

/-- What the loop carries from one sample to the next, with the lines it has logged. -/
structure State where
  sampleCount : Int := 0
  sumUs : Int := 0
  /-- Each with its average and its number of samples. -/
  lines : List (Int × Int) := []

/-- The body of the loop. It fails where a signed number overflows. -/
def State.iterate (stress : Bool) (s : State) (sample : Sample) : Option State :=
  let sumUs := s.sumUs + sample.us
  let sampleCount := s.sampleCount + 1
  if sample.elapsed < -2 ^ 63 ∨ 2 ^ 63 ≤ sample.elapsed then none
  else if sumUs < -2 ^ 63 ∨ 2 ^ 63 ≤ sumUs ∨ 2 ^ 31 ≤ sampleCount then none
  else if logEvery stress ≤ sampleCount then
    let avgUs := sumUs.tdiv sampleCount
    some { sampleCount := 0, sumUs := 0, lines := s.lines ++ [(avgUs, sampleCount)] }
  else some { s with sampleCount, sumUs }

/-- `TimebaseTest::run`, by what the clock shows until it sees `stop`. -/
def run (stress : Bool) (samples : List Sample) : Option State :=
  samples.foldlM (State.iterate stress) {}

/-- The clock is a `steady_clock`, and `sleep_for` sleeps no less than it is asked to. -/
def Sample.Slept (stress : Bool) (sample : Sample) : Prop :=
  0 ≤ sample.t1 ∧ sample.t1 + sleepDuration stress ≤ sample.t2 ∧ sample.t2 < 2 ^ 63

section Windows
variable {α : Type} (width : Nat) (l : List α)

/-- The `k`-th full window. -/
def window (k : Nat) : List α := (l.drop (k * width)).take width

/-- The full windows of a list, one after the other. -/
def windows : List (List α) := (List.range (l.length / width)).map (window width l)

/-- What comes after the full windows. -/
def rest : List α := l.drop (l.length / width * width)

@[simp] theorem length_rest : (rest width l).length = l.length % width := by
  rw [rest, List.length_drop, Nat.mod_eq_sub_div_mul]

@[simp] theorem length_windows : (windows width l).length = l.length / width := by
  simp [windows]

variable {width l}

private theorem window_end_le {k : Nat} (hk : k < l.length / width) :
    k * width + width ≤ l.length := by
  rw [← Nat.succ_mul]
  exact (Nat.mul_le_mul_right width hk).trans (Nat.div_mul_le_self _ _)

/-- Each whole window has exactly `width` elements. -/
theorem length_window {k : Nat} (hk : k < l.length / width) :
    (window width l k).length = width := by
  have hend := window_end_le hk
  rw [window, List.length_take, List.length_drop]
  omega

/-- The windows that are full stay as they are. -/
private theorem windows_append (x : α) :
    (List.range (l.length / width)).map (window width (l ++ [x])) = windows width l := by
  refine List.map_congr_left fun k hk => ?_
  have hend := window_end_le (List.mem_range.mp hk)
  rw [window, List.drop_append_of_le_length (by omega), List.take_append_of_le_length, window]
  rw [List.length_drop]
  omega

/-- A sample that does not complete the window joins the rest. -/
theorem rest_append_of_lt (hlt : (rest width l).length + 1 < width) (x : α) :
    windows width (l ++ [x]) = windows width l ∧ rest width (l ++ [x]) = rest width l ++ [x] := by
  rw [length_rest] at hlt
  have hquotient : (l ++ [x]).length / width = l.length / width := by
    rw [List.length_append, List.length_singleton, Nat.succ_div_of_not_dvd]
    rw [Nat.dvd_iff_mod_eq_zero, Nat.add_mod]
    rw [Nat.mod_eq_of_lt (show 1 < width by omega), Nat.mod_eq_of_lt hlt]
    omega
  refine ⟨?_, ?_⟩
  · rw [windows, hquotient]
    exact windows_append x
  · rw [rest, hquotient, List.drop_append_of_le_length (Nat.div_mul_le_self _ _), rest]

/-- The sample that completes the window closes it and leaves no rest. -/
theorem rest_append_of_eq (heq : (rest width l).length + 1 = width) (x : α) :
    windows width (l ++ [x]) = windows width l ++ [rest width l ++ [x]] ∧
      rest width (l ++ [x]) = [] := by
  have hlength := heq
  rw [length_rest] at hlength
  have hdivide := Nat.div_add_mod' l.length width
  have hquotient : (l ++ [x]).length / width = l.length / width + 1 := by
    rw [List.length_append, List.length_singleton, Nat.div_eq_iff (by omega)]
    rw [Nat.add_mul]
    omega
  refine ⟨?_, ?_⟩
  · rw [windows, hquotient, List.range_succ, List.map_append, windows_append x]
    congr 1
    rw [List.map_singleton, window, List.drop_append_of_le_length (Nat.div_mul_le_self _ _), ← rest,
      List.take_of_length_le (by simp [hlength])]
  · rw [rest, hquotient, List.drop_eq_nil_iff, List.length_append, List.length_singleton,
      Nat.add_mul]
    omega

end Windows

/-- The time of some samples, as the code sums it. -/
def totalUs (samples : List Sample) : Int := (samples.map Sample.us).sum

/-- The line about some samples. -/
def line (samples : List Sample) : Int × Int :=
  ((totalUs samples).tdiv samples.length, samples.length)

/-- What the samples up to some moment have left. -/
structure State.Covers (stress : Bool) (samples : List Sample) (s : State) : Prop where
  sampleCount : s.sampleCount = (rest (logEvery stress) samples).length
  sumUs : s.sumUs = totalUs (rest (logEvery stress) samples)
  lines : s.lines = (windows (logEvery stress) samples).map line

variable {stress : Bool} {samples : List Sample}

/-- Under the contract of the clock and of the sleep, the microseconds are the truncated
nanoseconds. -/
theorem Sample.Slept.us {sample : Sample} (h : sample.Slept stress) :
    sleepDuration stress ≤ 1000 * sample.us ∧ 1000 * sample.us ≤ sample.elapsed ∧
      sample.elapsed ≤ 1000 * sample.us + 999 ∧ sample.elapsed < 2 ^ 63 := by
  obtain ⟨hstart, hslept, hend⟩ := h
  have hsleep : 0 < sleepDuration stress ∧ sleepDuration stress % 1000 = 0 := by
    cases stress <;> decide
  have htime : sample.us = sample.elapsed / 1000 :=
    Int.tdiv_eq_ediv_of_nonneg (by rw [Sample.elapsed]; omega)
  rw [Sample.elapsed] at htime ⊢
  omega

/-- Each sample loses less than a microsecond. -/
theorem totalUs_bounds (h : ∀ sample ∈ samples, sample.Slept stress) :
    sleepDuration stress * samples.length ≤ 1000 * totalUs samples ∧
      1000 * totalUs samples ≤ (samples.map Sample.elapsed).sum ∧
      (samples.map Sample.elapsed).sum ≤ 1000 * totalUs samples + 999 * samples.length ∧
      (samples.map Sample.elapsed).sum ≤ (2 ^ 63 - 1) * samples.length := by
  induction samples with
  | nil => simp [totalUs]
  | cons sample samples ih =>
    obtain ⟨hslept, hlow, hhigh, hend⟩ := (h sample (by simp)).us
    have hrest := ih fun other hother => h other (by simp [hother])
    simp only [totalUs, List.map_cons, List.sum_cons, List.length_cons, Nat.cast_add,
      Nat.cast_one, Int.mul_add, Int.mul_one] at hrest ⊢
    omega

/-- A line is logged every 64 or every 16 samples. -/
theorem logEvery_cases (stress : Bool) : logEvery stress = 64 ∨ logEvery stress = 16 := by
  cases stress <;> simp [logEvery]

/-- With the samples of one window there is no overflow. -/
theorem totalUs_fits (h : ∀ sample ∈ samples, sample.Slept stress) (hlength : samples.length ≤ 64) :
    0 ≤ totalUs samples ∧ totalUs samples < 2 ^ 63 := by
  obtain ⟨hslept, hlow, -, hend⟩ := totalUs_bounds h
  have hsleep : 0 < sleepDuration stress := by cases stress <;> decide
  have hleast : 0 ≤ sleepDuration stress * samples.length := by positivity
  omega

/-- One more round of the loop. -/
theorem State.Covers.iterate {s : State} (h : s.Covers stress samples)
    (hsamples : ∀ other ∈ samples, other.Slept stress) {sample : Sample}
    (hsample : sample.Slept stress) :
    ∃ s', s.iterate stress sample = some s' ∧ s'.Covers stress (samples ++ [sample]) := by
  have hwidth := logEvery_cases stress
  have hless : (rest (logEvery stress) samples).length < logEvery stress := by
    rw [length_rest]
    exact Nat.mod_lt _ (by omega)
  obtain ⟨hslept, hlow, -, hend⟩ := hsample.us
  have hsleep : 0 < sleepDuration stress := by cases stress <;> decide
  -- the sums are those over the samples since the last line, the new one included
  have hsum : s.sumUs + sample.us = totalUs (rest (logEvery stress) samples ++ [sample]) := by
    simp [h.sumUs, totalUs]
  have hcount : s.sampleCount + 1 = (rest (logEvery stress) samples ++ [sample]).length := by
    simp [h.sampleCount]
  have hlength : (rest (logEvery stress) samples ++ [sample]).length =
      (rest (logEvery stress) samples).length + 1 := by simp
  have hslept' : ∀ other ∈ rest (logEvery stress) samples ++ [sample], other.Slept stress := by
    intro other hother
    rcases List.mem_append.mp hother with hother | hother
    · exact hsamples other (List.mem_of_mem_drop hother)
    · exact List.mem_singleton.mp hother ▸ hsample
  have hfits := totalUs_fits hslept' (by omega)
  rw [State.iterate, hsum, hcount, if_neg (by omega), if_neg (by omega)]
  by_cases hfull : (rest (logEvery stress) samples).length + 1 = logEvery stress
  · obtain ⟨hwindows, hrest⟩ := rest_append_of_eq hfull sample
    rw [if_pos (by omega)]
    refine ⟨_, rfl, by simp [hrest], by simp [hrest, totalUs], ?_⟩
    simp [hwindows, h.lines, line]
  · obtain ⟨hwindows, hrest⟩ := rest_append_of_lt (Nat.lt_of_le_of_ne hless hfull) sample
    rw [if_neg (by omega)]
    exact ⟨_, rfl, by rw [hrest], by rw [hrest], by rw [hwindows, ← h.lines]⟩

/-- The loop runs through without overflow, and covers the samples read. -/
theorem run_covers (h : ∀ sample ∈ samples, sample.Slept stress) :
    ∃ s, run stress samples = some s ∧ s.Covers stress samples := by
  induction samples using List.reverseRecOn with
  | nil => exact ⟨{}, rfl, by simp [rest], by simp [rest, totalUs], by simp [windows]⟩
  | append_singleton samples sample ih =>
    obtain ⟨s, hrun, hcovers⟩ := ih fun other hother => h other (by simp [hother])
    obtain ⟨s', hiterate, hcovers'⟩ :=
      hcovers.iterate (fun other hother => h other (by simp [hother])) (h sample (by simp))
    refine ⟨s', ?_, hcovers'⟩
    rw [run, List.foldlM_append, show samples.foldlM (State.iterate stress) {} = _ from hrun]
    simp [hiterate]

/-- The latencies it logs are true, in microseconds: each line is about the next full window of
samples, its average is at most two microseconds below that of the clock and no less than the
time asked for, and nothing overflows. -/
theorem run_lines (h : ∀ sample ∈ samples, sample.Slept stress) :
    ∃ s, run stress samples = some s ∧ s.lines.length = samples.length / logEvery stress ∧
      s.sampleCount = samples.length % logEvery stress ∧
      ∀ k (avgUs count : Int), s.lines[k]? = some (avgUs, count) →
        count = logEvery stress ∧ count = (window (logEvery stress) samples k).length ∧
        sleepDuration stress ≤ 1000 * avgUs ∧
        1000 * avgUs * count ≤ ((window (logEvery stress) samples k).map Sample.elapsed).sum ∧
        ((window (logEvery stress) samples k).map Sample.elapsed).sum <
          1000 * (avgUs + 2) * count := by
  obtain ⟨s, hrun, hcovers⟩ := run_covers h
  refine ⟨s, hrun, by simp [hcovers.lines], by simp [hcovers.sampleCount], ?_⟩
  intro k avgUs count hline
  rw [hcovers.lines, windows, List.map_map, List.getElem?_map, Option.map_eq_some_iff] at hline
  obtain ⟨_, hentry, hline⟩ := hline
  obtain ⟨hrange, rfl⟩ := List.getElem?_eq_some_iff.mp hentry
  rw [List.length_range] at hrange
  rw [List.getElem_range] at hline
  have hlength := length_window hrange
  have hwindow : ∀ sample ∈ window (logEvery stress) samples k, sample.Slept stress :=
    fun sample hsample => h sample (List.mem_of_mem_drop (List.mem_of_mem_take hsample))
  obtain ⟨hslept, hlow, hhigh, -⟩ := totalUs_bounds hwindow
  rw [Function.comp_apply, line, Prod.mk.injEq, hlength] at hline
  rw [hlength] at hslept hhigh ⊢
  obtain ⟨havg, rfl⟩ := hline
  have hsleep : 0 < sleepDuration stress := by cases stress <;> decide
  have hpositive : 0 ≤ totalUs (window (logEvery stress) samples k) := by
    have hleast : 0 ≤ sleepDuration stress * logEvery stress := by positivity
    omega
  rw [Int.tdiv_eq_ediv_of_nonneg hpositive] at havg
  refine ⟨rfl, rfl, ?_, ?_, ?_⟩ <;>
    cases stress <;>
      simp only [logEvery, sleepDuration, Bool.false_eq_true, if_false, if_true,
        Nat.cast_ofNat] at * <;>
        omega

/-- Seventeen samples of one and a half milliseconds: one line for the first sixteen, one sample
left over. -/
theorem run_lines_one : ∃ s, run false (List.replicate 17 ⟨0, 1500999⟩) = some s ∧
    s.lines.length = 1 ∧ s.sampleCount = 1 ∧ s.lines = [(1500, 16)] := by
  have hslept : ∀ sample ∈ List.replicate 17 (Sample.mk 0 1500999), sample.Slept false := by
    simp [Sample.Slept, sleepDuration]
  obtain ⟨s, hrun, hlines, hcount, -⟩ := run_lines hslept
  refine ⟨s, hrun, hlines, hcount, ?_⟩
  have heval : (run false (List.replicate 17 ⟨0, 1500999⟩)).map State.lines =
      some [(1500, 16)] := by decide +kernel
  rw [hrun] at heval
  exact Option.some.inj heval

end spdlogger.timebase
