import Mathlib.Data.List.Basic
import Mathlib.Data.List.Induction
import Spdlogger.Library.CBuffer

namespace spdlogger.string_uaf

/-- The buffer of a message and the length of the text in it. -/
structure DeferredLog where
  data : Vector UInt8 32 := Vector.replicate 32 0
  dataLen : Int := 0

/-- What the format of `set` gives for a number. -/
def deferredText (number : UInt32) : List UInt8 :=
  cstring.bytes ("deferred=uaf:".toList ++ cstring.unsigned number)

/-- `set` formats the message into its buffer. -/
def DeferredLog.set (self : DeferredLog) (nextRand : UInt32) : DeferredLog :=
  let (data, dataLen) := cstring.snprintf self.data (deferredText nextRand)
  { data, dataLen }

/-- The text that `emit` logs. The length becomes a `size_t`. -/
def DeferredLog.emit (self : DeferredLog) : Option (List UInt8) :=
  cstring.view self.data (UInt64.ofInt self.dataLen).toNat

/-- The message of the test, with the lines it has logged. -/
structure State where
  d : DeferredLog := {}
  log : List (List UInt8) := []

/-- The body of the loop. -/
def State.iterate (s : State) (nextRand : UInt32) : Option State :=
  let d := s.d.set nextRand
  d.emit.map fun text => { d, log := s.log ++ [text] }

/-- `StringUafTest::run`, by the numbers drawn until it sees `stop`. -/
def run (numbers : List UInt32) : Option State := numbers.foldlM State.iterate {}

/-- No deferred text is longer than 23 bytes, so it fits the buffer. -/
theorem length_deferredText_le (number : UInt32) : (deferredText number).length ≤ 23 := by
  have hdigits := cstring.length_unsigned_le number
  have hprefix : "deferred=uaf:".toList.length = 13 := by decide
  simp only [deferredText, cstring.bytes, List.length_map, List.length_append, hprefix]
  omega

/-- The object is used again, but nothing of its last text is left to see. -/
theorem DeferredLog.emit_set (self : DeferredLog) (number : UInt32) :
    (self.set number).emit = some (deferredText number) := by
  have hlength := length_deferredText_le number
  have hview := cstring.view_snprintf (show (deferredText number).length < 32 by omega) self.data
  have hsize : (UInt64.ofInt (self.set number).dataLen).toNat = (deferredText number).length := by
    show (UInt64.ofInt (deferredText number).length).toNat = _
    rw [UInt64.ofInt, UInt64.toNat_ofNat']
    omega
  rw [DeferredLog.emit, hsize]
  exact hview

/-- The number can be read back. -/
theorem deferredText_injective : Function.Injective deferredText := by
  intro number other hsame
  simp only [deferredText, cstring.bytes, List.map_append] at hsame
  have hdigits := List.append_cancel_left hsame
  exact cstring.unsigned_injective (cstring.bytes_inj
    (fun c hc => (cstring.ascii_of_mem_unsigned hc).2)
    (fun c hc => (cstring.ascii_of_mem_unsigned hc).2) hdigits)

/-- Every emitted line is the text set before it. -/
theorem run_eq (numbers : List UInt32) :
    ∃ d, run numbers = some { d, log := numbers.map deferredText } := by
  induction numbers using List.reverseRecOn with
  | nil => exact ⟨{}, rfl⟩
  | append_singleton numbers number ih =>
    obtain ⟨d, hrun⟩ := ih
    refine ⟨d.set number, ?_⟩
    rw [run, List.foldlM_append, show numbers.foldlM State.iterate {} = _ from hrun]
    simp [State.iterate, DeferredLog.emit_set]

/-- Every line shows the number of its round, whole and nothing more, so that the log tells the
numbers. -/
theorem run_shows_numbers (numbers : List UInt32) : ∃ s, run numbers = some s ∧
    s.log = numbers.map deferredText ∧ (∀ text ∈ s.log, text.length ≤ 23) ∧
      ∀ others last, run others = some last → last.log = s.log → others = numbers := by
  obtain ⟨d, hrun⟩ := run_eq numbers
  refine ⟨_, hrun, rfl, ?_, fun others last hother hsame => ?_⟩
  · simpa using fun number _ => length_deferredText_le number
  · obtain ⟨e, hlast⟩ := run_eq others
    rw [hlast, Option.some.injEq] at hother
    subst hother
    exact List.map_injective_iff.mpr deferredText_injective hsame

end spdlogger.string_uaf
