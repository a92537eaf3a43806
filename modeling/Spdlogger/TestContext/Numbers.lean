import Spdlogger.TestContext.Grammar

namespace spdlogger.test_context

/-- The options with a numeric value. -/
inductive NumericOption where
  | seconds
  | queuesize
  | maxthreads
  deriving DecidableEq, Repr

/-- The option, among all with a value. -/
def NumericOption.flag : NumericOption → Flag
  | .seconds => .seconds
  | .queuesize => .queuesize
  | .maxthreads => .maxthreads

/-- The largest number that an option is to take. -/
def NumericOption.bound (platform : Platform) : NumericOption → Int
  | .seconds | .maxthreads => INT_MAX
  | .queuesize => platform.LONG_MAX

/-- The setting with this number. -/
def NumericOption.store (number : Int) (ctx : TestContext) : NumericOption → TestContext
  | .seconds => { ctx with seconds := number }
  | .queuesize => { ctx with queueSize := number }
  | .maxthreads => { ctx with maxThreads := some number }

/-- The number that is taken of a value, if one is. -/
def NumericOption.accept (platform : Platform) (value : String) : NumericOption → Option Int
  | .seconds | .maxthreads => positiveInt platform value
  | .queuesize => positiveSize platform value

/-- The bound of each option is within `LONG_MAX`. -/
theorem NumericOption.bound_le (platform : Platform) (option : NumericOption) :
    option.bound platform ≤ platform.LONG_MAX := by
  cases option with
  | seconds | maxthreads => exact platform.int_le_long
  | queuesize => exact le_rfl

/-- The number as far as a `long` can hold it. -/
def Platform.saturate (platform : Platform) (number : Int) : Int :=
  max platform.LONG_MIN (min platform.LONG_MAX number)

/-- A positive number within `LONG_MAX` is converted as it is. -/
theorem Platform.saturate_of_le {platform : Platform} {number : Int} (hpositive : 1 ≤ number)
    (hle : number ≤ platform.LONG_MAX) : platform.saturate number = number := by
  have hwide := platform.int_le_long
  unfold Platform.saturate Platform.LONG_MIN
  unfold INT_MAX at hwide
  omega

/-- The converted number never exceeds `LONG_MAX`. -/
theorem Platform.saturate_le (platform : Platform) (number : Int) :
    platform.saturate number ≤ platform.LONG_MAX := by
  have hwide := platform.int_le_long
  unfold Platform.saturate Platform.LONG_MIN
  unfold INT_MAX at hwide
  omega

/-- An option accepts what its value begins with, as far as `long` can hold it. -/
theorem NumericOption.accept_eq_some_iff {platform : Platform} {option : NumericOption}
    {value : String} {stored : Int} :
    option.accept platform value = some stored ↔ ∃ number rest,
      cstring.Leads value.toList number rest ∧ stored = platform.saturate number ∧
      1 ≤ stored ∧ stored ≤ option.bound platform := by
  have hcases := cstring.strtol_cases platform.LONG_MIN platform.LONG_MAX value.toList
  have hfits := platform.long_le_size
  have hwidth : 0 < platform.SIZE_MAX := by
    have hwide := platform.int_le_long
    unfold INT_MAX at hwide
    omega
  obtain ⟨number, rest, hleads, hconvert⟩ | ⟨hnone, hconvert⟩ := hcases
  · have hle := platform.saturate_le number
    have hconverted : convert platform value = ⟨platform.saturate number, rest⟩ := hconvert
    have hunique : (∃ other others, cstring.Leads value.toList other others ∧
        stored = platform.saturate other ∧ 1 ≤ stored ∧ stored ≤ option.bound platform) ↔
        stored = platform.saturate number ∧ 1 ≤ stored ∧ stored ≤ option.bound platform := by
      constructor
      · rintro ⟨other, others, hother, hstored⟩
        obtain ⟨rfl, _⟩ := hleads.unique hother
        exact hstored
      · exact fun hstored => ⟨number, rest, hleads, hstored⟩
    rw [hunique]
    cases option with
    | seconds | maxthreads =>
      simp only [NumericOption.accept, NumericOption.bound, positiveInt, hconverted, hleads.rest_ne,
        ne_eq, not_false_eq_true, true_and, Option.ite_none_right_eq_some, Option.some.injEq]
      omega
    | queuesize =>
      simp only [NumericOption.accept, NumericOption.bound, positiveSize, hconverted,
        hleads.rest_ne, ne_eq, not_false_eq_true, true_and, Option.ite_none_right_eq_some,
        Option.some.injEq]
      constructor
      · rintro ⟨hpositive, hstored⟩
        rw [Int.emod_eq_of_lt (by omega) (by omega)] at hstored
        omega
      · rintro ⟨rfl, hpositive, _⟩
        rw [Int.emod_eq_of_lt (by omega) (by omega)]
        omega
  · have hconverted : convert platform value = ⟨0, value.toList⟩ := hconvert
    have hrejected : option.accept platform value = none := by
      cases option <;> simp [NumericOption.accept, positiveInt, positiveSize, hconverted]
    rw [hrejected]
    constructor
    · exact nofun
    · rintro ⟨number, rest, hleads, _⟩
      exact absurd hleads (hnone number rest)

-- The same queue size, where `long` has 64 bits and where it has 32.
example : (NumericOption.queuesize.accept lp64 "3000000000",
    NumericOption.queuesize.accept llp64 "3000000000") = (some 3000000000, some 2147483647) := by
  decide

/-- The branch of a numeric option stores what it accepts. -/
theorem NumericOption.setOption_fst (platform : Platform) (from_str : String → Level)
    (ctx : TestContext) (option : NumericOption) (value : String) :
    (ctx.setOption platform from_str option.flag value).1 =
      ((option.accept platform value).map fun number => option.store number ctx).getD ctx := by
  cases option with
  | seconds | maxthreads =>
    cases haccept : positiveInt platform value <;>
      simp [NumericOption.flag, NumericOption.accept, NumericOption.store, TestContext.setOption,
        haccept]
  | queuesize =>
    cases haccept : positiveSize platform value <;>
      simp [NumericOption.flag, NumericOption.accept, NumericOption.store, TestContext.setOption,
        haccept]

/-- A numeric option sets its field to the accepted number, or leaves the field and prints its
message. -/
theorem NumericOption.parseArgument_eq (platform : Platform) (from_str : String → Level)
    (option : NumericOption) (ctx : TestContext) {argv : List String} {i : Nat} {value : String}
    (htoken : argv[i]? = some option.flag.token) (hvalue : argv[i + 1]? = some value) :
    ∃ message, ctx.parseArgument platform from_str argv i =
      .ok ((((option.accept platform value).map fun number => option.store number ctx).getD ctx,
        message), true) := by
  refine ⟨(ctx.setOption platform from_str option.flag value).2, ?_⟩
  rw [ctx.parseArgument_of_flag platform from_str htoken hvalue, ← NumericOption.setOption_fst]

/-- The value is a number, with nothing after it, that the option is to take. -/
def NumericOption.Valid (platform : Platform) (option : NumericOption) (value : String)
    (number : Int) : Prop :=
  cstring.Leads value.toList number [] ∧ 1 ≤ number ∧ number ≤ option.bound platform

/-- Wherever a command line gives this value to the option, a valid number is stored,
and anything else changes nothing. -/
def NumericOption.Exact (platform : Platform) (from_str : String → Level) (option : NumericOption)
    (value : String) : Prop :=
  ∀ (ctx : TestContext) (argv : List String) (i : Nat), argv[i]? = some option.flag.token →
    argv[i + 1]? = some value → ∃ next message,
      ctx.parseArgument platform from_str argv i = .ok ((next, message), true) ∧
      (∀ number, option.Valid platform value number → next = option.store number ctx) ∧
      ((∀ number, ¬ option.Valid platform value number) → next = ctx)

/-- The value begins with a number that passes the range check once a `long` holds it,
but it goes on after the number, or the number is another one. -/
def NumericOption.Misleads (platform : Platform) (option : NumericOption) (value : String) :
    Prop :=
  ∃ number rest, cstring.Leads value.toList number rest ∧ 1 ≤ platform.saturate number ∧
    platform.saturate number ≤ option.bound platform ∧
    (rest ≠ [] ∨ platform.saturate number ≠ number)

/-- A misleading value is not a valid number at all. -/
theorem NumericOption.not_valid_of_misleads {platform : Platform} {option : NumericOption}
    {value : String} (hmisleads : option.Misleads platform value) (number : Int) :
    ¬ option.Valid platform value number := by
  rintro ⟨hwhole, hpositive, hle⟩
  obtain ⟨other, rest, hleads, _, _, hwrong⟩ := hmisleads
  obtain ⟨rfl, rfl⟩ := hwhole.unique hleads
  obtain hmore | hother := hwrong
  · exact hmore rfl
  · exact hother (Platform.saturate_of_le hpositive (hle.trans (option.bound_le platform)))

/-- What misleads is stored, whatever the setting was before. -/
theorem NumericOption.not_exact_of_misleads {platform : Platform} {option : NumericOption}
    {value : String} (from_str : String → Level) (hmisleads : option.Misleads platform value) :
    ¬ option.Exact platform from_str value := by
  intro hexact
  have hinvalid := option.not_valid_of_misleads hmisleads
  obtain ⟨number, rest, hleads, hpositive, hle, _⟩ := hmisleads
  have haccept : option.accept platform value = some (platform.saturate number) :=
    NumericOption.accept_eq_some_iff.mpr ⟨number, rest, hleads, rfl, hpositive, hle⟩
  -- A setting that differs from what is stored.
  obtain ⟨next, message, hparse, _, hsame⟩ := hexact (option.store (platform.saturate number + 1) {})
    [option.flag.token, value] 0 rfl rfl
  obtain ⟨printed, hstored⟩ := option.parseArgument_eq platform from_str
    (option.store (platform.saturate number + 1) {})
    (show [option.flag.token, value][0]? = some option.flag.token from rfl) rfl
  rw [hparse, haccept, hsame hinvalid] at hstored
  have hnext := congrArg Prod.fst (congrArg Prod.fst (Except.ok.inj hstored))
  cases option with
  | seconds => simp [NumericOption.store] at hnext
  | queuesize => simp [NumericOption.store] at hnext
  | maxthreads => simp [NumericOption.store] at hnext

/-- On every value that does not mislead it, an option is exact. -/
theorem NumericOption.exact_of_not_misleads {platform : Platform} {option : NumericOption}
    {value : String} (from_str : String → Level) (hsound : ¬ option.Misleads platform value) :
    option.Exact platform from_str value := by
  intro ctx argv i htoken hvalue
  obtain ⟨message, hparse⟩ := option.parseArgument_eq platform from_str ctx htoken hvalue
  refine ⟨_, message, hparse, ?_, ?_⟩
  · rintro number ⟨hwhole, hpositive, hle⟩
    have hsaturate := Platform.saturate_of_le hpositive (hle.trans (option.bound_le platform))
    have haccept : option.accept platform value = some number :=
      NumericOption.accept_eq_some_iff.mpr ⟨number, [], hwhole, hsaturate.symm, hpositive, hle⟩
    rw [haccept]
    rfl
  · intro hinvalid
    have hreject : option.accept platform value = none := by
      rw [Option.eq_none_iff_forall_ne_some]
      intro stored hstored
      obtain ⟨number, rest, hleads, rfl, hpositive, hle⟩ :=
        NumericOption.accept_eq_some_iff.mp hstored
      have hexact : ¬ (rest ≠ [] ∨ platform.saturate number ≠ number) :=
        fun hwrong => hsound ⟨number, rest, hleads, hpositive, hle, hwrong⟩
      rw [not_or, not_not, not_not] at hexact
      obtain ⟨rfl, hsame⟩ := hexact
      rw [hsame] at hpositive hle
      exact hinvalid number ⟨hleads, hpositive, hle⟩
    rw [hreject]
    rfl

/-- A numeric option takes exactly the numbers unless its value misleads. -/
theorem NumericOption.exact_iff (platform : Platform) (from_str : String → Level)
    (option : NumericOption) (value : String) :
    option.Exact platform from_str value ↔ ¬ option.Misleads platform value :=
  ⟨fun hexact hmisleads => option.not_exact_of_misleads from_str hmisleads hexact,
    option.exact_of_not_misleads from_str⟩

/-- Text after a number is overlooked, and a queue size past `LONG_MAX` becomes `LONG_MAX`. -/
theorem not_exact_trailing_text :
    ¬ NumericOption.seconds.Exact lp64 (fun _ => .off) "7abc" ∧
    ¬ NumericOption.maxthreads.Exact lp64 (fun _ => .off) "7abc" ∧
    ¬ NumericOption.queuesize.Exact lp64 (fun _ => .off) "7abc" ∧
    ¬ NumericOption.queuesize.Exact lp64 (fun _ => .off) "9223372036854775808" := by
  have hseven : cstring.Leads "7abc".toList 7 "abc".toList :=
    cstring.leading_eq_some_iff.mp (by decide)
  have hpast : cstring.Leads "9223372036854775808".toList 9223372036854775808 [] :=
    cstring.leading_eq_some_iff.mp (by decide)
  refine ⟨?_, ?_, ?_, ?_⟩
  · exact NumericOption.not_exact_of_misleads _ ⟨7, _, hseven, by decide, by decide, by decide⟩
  · exact NumericOption.not_exact_of_misleads _ ⟨7, _, hseven, by decide, by decide, by decide⟩
  · exact NumericOption.not_exact_of_misleads _ ⟨7, _, hseven, by decide, by decide, by decide⟩
  · exact NumericOption.not_exact_of_misleads _ ⟨_, _, hpast, by decide, by decide, by decide⟩

end spdlogger.test_context
