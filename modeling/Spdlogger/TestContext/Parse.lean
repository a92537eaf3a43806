import Mathlib.Data.Finset.Basic
import Spdlogger.Library.CString

namespace spdlogger.test_context

/-- `spdlog::level::level_enum`. -/
inductive Level where
  | trace
  | debug
  | info
  | warn
  | err
  | critical
  | off
  deriving DecidableEq, Repr

/-- The largest `int`. -/
def INT_MAX : Int := 0x7FFFFFFF

/-- The ranges of the types whose width the platform decides. -/
structure Platform where
  LONG_MAX : Int
  SIZE_MAX : Int
  int_le_long : INT_MAX ≤ LONG_MAX
  long_le_size : LONG_MAX ≤ SIZE_MAX

/-- The smallest `long`. -/
def Platform.LONG_MIN (platform : Platform) : Int := -platform.LONG_MAX - 1

/-- `long` has 64 bits. -/
def lp64 : Platform := ⟨0x7FFFFFFFFFFFFFFF, 0xFFFFFFFFFFFFFFFF, by decide, by decide⟩

/-- `long` has 32 bits, and `size_t` has 64. -/
def llp64 : Platform := ⟨0x7FFFFFFF, 0xFFFFFFFFFFFFFFFF, by decide, by decide⟩

/-- The settings, with the defaults of the source. -/
structure TestContext where
  seconds : Int := 5
  stress : Bool := false
  logLevel : Level := .info
  queueSize : Int := 8192
  filename : Option String := none
  maxThreads : Option Int := none
  ignoreTests : Finset String := ∅
  deriving DecidableEq

/-- The test is not ignored. -/
def TestContext.shouldRun (self : TestContext) (testName : String) : Bool :=
  testName ∉ self.ignoreTests

/-- The options that take a value. -/
inductive Flag where
  | seconds
  | loglevel
  | queuesize
  | filename
  | maxthreads
  | ignoretests
  deriving DecidableEq, Repr

/-- `std::strtol(value, &end, 10)`. -/
def convert (platform : Platform) (value : String) : cstring.Converted :=
  cstring.strtol platform.LONG_MIN platform.LONG_MAX value.toList

/-- The value that `--seconds` and `--maxthreads` accept. -/
def positiveInt (platform : Platform) (value : String) : Option Int :=
  let converted := convert platform value
  if converted.rest ≠ value.toList ∧ converted.value > 0 ∧ converted.value ≤ INT_MAX then
    some converted.value
  else none

/-- `--queuesize` tests no upper bound; the `long` is cast to `size_t`. -/
def positiveSize (platform : Platform) (value : String) : Option Int :=
  let converted := convert platform value
  if converted.rest ≠ value.toList ∧ converted.value > 0 then
    some (converted.value % (platform.SIZE_MAX + 1))
  else none

/-- `spdlog::level::from_str` answers `off` to names it does not know. -/
def knownLevel (from_str : String → Level) (value : String) : Option Level :=
  let level := from_str value
  if level = .off ∧ value ≠ "off" then none else some level

/-- The non-empty names of a comma-separated list. -/
def namesOf (value : String) : List String :=
  ((cstring.getlines ',' value.toList).filter fun token => !token.isEmpty).map String.ofList

section Parsing

variable (platform : Platform) (from_str : String → Level)

/-- What the branch of an option does with its value, and what it prints to `stderr`. -/
def TestContext.setOption (ctx : TestContext) (flag : Flag) (value : String) :
    TestContext × List String :=
  match flag with
  | .seconds =>
    match positiveInt platform value with
    | some val => ({ ctx with seconds := val }, [])
    | none => (ctx, ["[args] invalid --seconds value '" ++ value ++ "', using default " ++
        toString ctx.seconds ++ "\n"])
  | .loglevel =>
    match knownLevel from_str value with
    | some level => ({ ctx with logLevel := level }, [])
    | none => (ctx, ["[args] unknown --loglevel '" ++ value ++ "', using info\n"])
  | .queuesize =>
    match positiveSize platform value with
    | some val => ({ ctx with queueSize := val }, [])
    | none => (ctx, ["[args] invalid --queuesize value '" ++ value ++ "', using default " ++
        toString ctx.queueSize ++ "\n"])
  | .filename => ({ ctx with filename := some value }, [])
  | .maxthreads =>
    match positiveInt platform value with
    | some val => ({ ctx with maxThreads := some val }, [])
    | none => (ctx, ["[args] invalid --maxthreads value '" ++ value ++
        "', using unlimited threads\n"])
  | .ignoretests =>
    ((namesOf value).foldl (fun ctx token =>
      { ctx with ignoreTests := insert token ctx.ignoreTests }) ctx, [])

/-- `argv[i]`. A read past the last argument is an error that tells the index. -/
def readArgument (argv : List String) (i : Nat) : Except Nat String :=
  match argv[i]? with
  | some argument => .ok argument
  | none => .error i

/-- The branch of an option, which reads `argv[++i]`. -/
def TestContext.takeValue (ctx : TestContext) (argv : List String) (i : Nat) (flag : Flag) :
    Except Nat ((TestContext × List String) × Bool) := do
  let value ← readArgument argv (i + 1)
  return (ctx.setOption platform from_str flag value, true)

/-- The body of the loop over the arguments. The last component tells whether it has
moved the index on to the value of an option. -/
def TestContext.parseArgument (ctx : TestContext) (argv : List String) (i : Nat) :
    Except Nat ((TestContext × List String) × Bool) := do
  let argument ← readArgument argv i
  if argument = "--seconds" ∧ i + 1 < argv.length then
    ctx.takeValue platform from_str argv i .seconds
  else if argument = "--stress" then
    return (({ ctx with stress := true }, []), false)
  else if argument = "--loglevel" ∧ i + 1 < argv.length then
    ctx.takeValue platform from_str argv i .loglevel
  else if argument = "--queuesize" ∧ i + 1 < argv.length then
    ctx.takeValue platform from_str argv i .queuesize
  else if argument = "--filename" ∧ i + 1 < argv.length then
    ctx.takeValue platform from_str argv i .filename
  else if argument = "--maxthreads" ∧ i + 1 < argv.length then
    ctx.takeValue platform from_str argv i .maxthreads
  else if argument = "--ignoretests" ∧ i + 1 < argv.length then
    ctx.takeValue platform from_str argv i .ignoretests
  else return ((ctx, []), false)

/-- The loop over the arguments from an index on. -/
def TestContext.parseFrom (ctx : TestContext) (printed : List String) (argv : List String)
    (i : Nat) : Except Nat (TestContext × List String) :=
  if i < argv.length then
    match ctx.parseArgument platform from_str argv i with
    | .error index => .error index
    | .ok ((ctx, message), advanced) =>
      parseFrom ctx (printed ++ message) argv (i + advanced.toNat + 1)
  else .ok (ctx, printed)
termination_by argv.length - i

/-- `TestContext::parse`, with what it prints. -/
def TestContext.parse (argv : List String) : Except Nat (TestContext × List String) :=
  TestContext.parseFrom platform from_str {} [] argv 1

end Parsing

end spdlogger.test_context
