import Spdlogger.Library.TwoThreads

namespace spdlogger.level

/-- Where the writer stands in its loop. -/
inductive WriterPhase where
  | testing
  | adding
  | sleeping
  | exited
  deriving DecidableEq, Repr

/-- Where the reader stands in its loop. -/
inductive ReaderPhase where
  | testing
  | loading
  | logging (level : BitVec 32)
  | sleeping
  | exited
  deriving DecidableEq, Repr

/-- `modifications` are the values of `g_level` in their order, from the store that `run`
begins with. A relaxed load need not see the last of them, but `seen` and what is older
is over for the reader. `loads` is history: the modifications that the reader has loaded. -/
structure State where
  stop : Bool := false
  modifications : List (BitVec 32) := [0]
  writeThread : WriterPhase := .testing
  readThread : ReaderPhase := .testing
  seen : Nat := 0
  log : List String := []
  loads : List Nat := []

/-- `load` says which modification the reader gets to see. -/
inductive Action where
  | stop
  | writeStep
  | load (index : Nat)
  | readStep
  deriving DecidableEq, Repr

/-- What the reader logs for a value. -/
def parity (level : BitVec 32) : String := if level &&& 1 ≠ 0 then "odd" else "even"

/-- A step of the writer, whose increment is the next entry of the modification order. -/
def State.writeStep (s : State) : Option State :=
  match s.writeThread with
  | .testing => some { s with writeThread := if s.stop then .exited else .adding }
  | .adding => some { s with
      modifications := s.modifications ++ [s.modifications.getLastD 0 + 1]
      writeThread := .sleeping }
  | .sleeping => some { s with writeThread := .testing }
  | .exited => none

/-- The relaxed load of the reader. It may be late, but never falls behind a load before it. -/
def State.load (s : State) (index : Nat) : Option State :=
  if s.readThread = .loading ∧ s.seen ≤ index then
    s.modifications[index]?.map fun level => { s with
      readThread := .logging level
      seen := index
      loads := s.loads ++ [index] }
  else none

/-- A step of the reader outside its load. -/
def State.readStep (s : State) : Option State :=
  match s.readThread with
  | .testing => some { s with readThread := if s.stop then .exited else .loading }
  | .logging level => some { s with
      log := s.log ++ [parity level]
      readThread := .sleeping }
  | .sleeping => some { s with readThread := .testing }
  | .loading | .exited => none

/-- One step of the threads, or the `stop` of the caller. -/
def State.step (s : State) : Action → Option State
  | .stop => some { s with stop := true }
  | .writeStep => s.writeStep
  | .load index => s.load index
  | .readStep => s.readStep

/-- The two threads of `LevelTest`, from their creation on. -/
def levelMachine : transition.Machine State Action where
  init s := s = {}
  step := State.step

end spdlogger.level
