import Spdlogger.TestContext.Numbers

namespace cstring

theorem decimalValue_toDigits (n : Nat) : decimalValue (Nat.toDigits 10 n) = n :=
  Nat.ofDigitChars_toDigits (by decide) (by decide)

/-- A numeral of digits alone is read as a whole. -/
theorem leads_toDigits (n : Nat) : Leads (Nat.toDigits 10 n) n [] := by
  refine ⟨⟨[], [], Nat.toDigits 10 n, by simp, by simp, .inl rfl, Nat.toDigits_ne_nil, ?_, ?_⟩, ?_⟩
  · exact fun c hc => Nat.isDigit_of_mem_toDigits (by decide) (by decide) hc
  · simp [applySign, decimalValue_toDigits]
  · simp

/-- A token has no delimiter, and nothing that is not in the stream. -/
theorem mem_of_mem_getlines {delimiter : Char} {stream token : List Char}
    (htoken : token ∈ getlines delimiter stream) : delimiter ∉ token ∧ ∀ c ∈ token, c ∈ stream := by
  fun_induction getlines delimiter stream with
  | case1 stream hline => cases htoken
  | case2 stream first rest hline ih =>
    unfold getline at hline
    rw [Option.ite_none_left_eq_some, Option.some.injEq, Prod.mk.injEq] at hline
    obtain ⟨_, rfl, rfl⟩ := hline
    obtain rfl | hlater := List.mem_cons.mp htoken
    · refine ⟨fun hmem => by simpa using List.mem_takeWhile_imp hmem, fun c hc => ?_⟩
      exact (List.takeWhile_prefix _).subset hc
    · obtain ⟨hfree, hall⟩ := ih hlater
      refine ⟨hfree, fun c hc => ?_⟩
      exact (List.dropWhile_suffix _).subset (List.mem_of_mem_drop (hall c hc))

end cstring

namespace spdlogger.test_context

/-- The character that ends a string of C. -/
def NUL : Char := Char.ofNat 0

/-- The level names of `--loglevel`. -/
def Level.name : Level → String
  | .trace => "trace"
  | .debug => "debug"
  | .info => "info"
  | .warn => "warn"
  | .err => "error"
  | .critical => "critical"
  | .off => "off"

/-- What `--ignoretests A,B,C` is given for these names. -/
def joinNames (names : List String) : String :=
  String.ofList ([ ','].intercalate (names.map String.toList))

/-- The options that ask for a configuration, given the names to ignore in some order. -/
def TestContext.items (ctx : TestContext) (names : List String) : List Item :=
  (if ctx.stress then [.stress] else []) ++
    [.option .seconds (Nat.repr ctx.seconds.toNat), .option .loglevel ctx.logLevel.name,
      .option .queuesize (Nat.repr ctx.queueSize.toNat)] ++
    ctx.filename.toList.map (.option .filename) ++
    ctx.maxThreads.toList.map (fun limit => .option .maxthreads (Nat.repr limit.toNat)) ++
    (if names = [] then [] else [.option .ignoretests (joinNames names)])

/-- A configuration that a command line can ask for. -/
structure TestContext.WellFormed (platform : Platform) (ctx : TestContext) : Prop where
  seconds : 1 ≤ ctx.seconds ∧ ctx.seconds ≤ INT_MAX
  queueSize : 1 ≤ ctx.queueSize ∧ ctx.queueSize ≤ platform.LONG_MAX
  maxThreads : ∀ limit, ctx.maxThreads = some limit → 1 ≤ limit ∧ limit ≤ INT_MAX
  filename : ∀ filename, ctx.filename = some filename → NUL ∉ filename.toList
  ignoreTests : ∀ name ∈ ctx.ignoreTests,
    name ≠ "" ∧ ',' ∉ name.toList ∧ NUL ∉ name.toList

section render

variable {platform : Platform} {from_str : String → Level}

/-- The decimal text of a number in range is accepted as that number. -/
theorem NumericOption.accept_repr (option : NumericOption) {number : Int} (hpositive : 1 ≤ number)
    (hle : number ≤ option.bound platform) :
    option.accept platform (Nat.repr number.toNat) = some number := by
  refine NumericOption.accept_eq_some_iff.mpr ⟨number, [], ?_, ?_, hpositive, hle⟩
  · have hleads := cstring.leads_toDigits number.toNat
    rw [Int.toNat_of_nonneg (by omega)] at hleads
    simpa using hleads
  · exact (Platform.saturate_of_le hpositive (hle.trans (option.bound_le platform))).symm

/-- Every accepted number is in range. -/
theorem NumericOption.bounds_of_accept (option : NumericOption) {value : String} {number : Int}
    (haccept : option.accept platform value = some number) :
    1 ≤ number ∧ number ≤ option.bound platform := by
  obtain ⟨_, _, _, _, hbounds⟩ := NumericOption.accept_eq_some_iff.mp haccept
  exact hbounds

/-- The names come back from their list. -/
theorem mem_namesOf_joinNames {names : List String} (hsome : names ≠ [])
    (hnames : ∀ name ∈ names, name ≠ "" ∧ ',' ∉ name.toList) (name : String) :
    name ∈ namesOf (joinNames names) ↔ name ∈ names := by
  have hfree : ∀ piece ∈ names.map String.toList, ',' ∉ piece := by
    intro piece hpiece
    obtain ⟨other, hother, rfl⟩ := List.mem_map.mp hpiece
    exact (hnames other hother).2
  rw [mem_namesOf_iff, joinNames, String.toList_ofList,
    List.splitOn_intercalate ',' hfree (by simpa using hsome)]
  constructor
  · rintro ⟨_, hpiece⟩
    obtain ⟨other, hother, hsame⟩ := List.mem_map.mp hpiece
    exact String.toList_inj.mp hsame ▸ hother
  · exact fun hname => ⟨(hnames name hname).1, List.mem_map_of_mem hname⟩

/-- An option whose value is taken, so that nothing is printed about it. -/
def Item.Accepted (platform : Platform) (from_str : String → Level) : Item → Prop
  | .stress => True
  | .option flag value => ∀ ctx : TestContext, (ctx.setOption platform from_str flag value).2 = []
  | .dangling _ | .other _ => False

/-- Over accepted items the loop prints no message. -/
theorem TestContext.parseFrom_of_accepted {items : List Item}
    (haccepted : ∀ item ∈ items, item.Accepted platform from_str) (ctx : TestContext)
    (printed : List String) {argv : List String} {i : Nat}
    (hdrop : argv.drop i = items.flatMap Item.tokens) :
    ctx.parseFrom platform from_str printed argv i =
      .ok (items.foldl (fun ctx item => item.apply platform from_str ctx) ctx, printed) := by
  induction items generalizing ctx i with
  | nil =>
    have hend : ¬ i < argv.length := by simpa using List.drop_eq_nil_iff.mp hdrop
    rw [TestContext.parseFrom, if_neg hend, List.foldl_nil]
  | cons item rest ih =>
    have hrest := fun other hother => haccepted other (List.mem_cons_of_mem item hother)
    have hitem := haccepted item List.mem_cons_self
    rw [List.flatMap_cons] at hdrop
    have hat : ∀ j, argv[i + j]? = (item.tokens ++ rest.flatMap Item.tokens)[j]? :=
      fun j => by rw [← List.getElem?_drop, hdrop]
    have hafter : argv.drop (i + item.tokens.length) = rest.flatMap Item.tokens := by
      rw [← List.drop_drop, hdrop, List.drop_left]
    rw [List.foldl_cons]
    cases item with
    | stress =>
      have htoken : argv[i]? = some "--stress" := hat 0
      have hparse : ctx.parseArgument platform from_str argv i =
          .ok (({ ctx with stress := true }, []), false) := by
        simp [TestContext.parseArgument, readArgument, htoken, bind, Except.bind, pure, Except.pure]
      have hless := (List.getElem?_eq_some_iff.mp htoken).1
      rw [TestContext.parseFrom, if_pos hless, hparse, ← ih hrest _ hafter]
      simp [Item.apply, Item.tokens]
    | option flag value =>
      have htoken : argv[i]? = some flag.token := hat 0
      have hparse := ctx.parseArgument_of_flag platform from_str htoken (hat 1)
      have hless := (List.getElem?_eq_some_iff.mp htoken).1
      rw [TestContext.parseFrom, if_pos hless, hparse, ← ih hrest _ hafter]
      simp [hitem ctx, Item.apply, Item.tokens]
    | dangling | other => cases hitem

/-- The values of a flag are those of its items. -/
theorem mem_valuesOf_iff {flag : Flag} {items : List Item} {value : String} :
    value ∈ valuesOf flag items ↔ Item.option flag value ∈ items := by
  simp only [valuesOf, List.mem_filterMap]
  constructor
  · rintro ⟨item, hitem, hvalue⟩
    cases item with
    | option target =>
      simp only [Item.valueOf, Option.ite_none_right_eq_some, Option.some.injEq] at hvalue
      obtain ⟨rfl, rfl⟩ := hvalue
      exact hitem
    | stress | dangling | other => cases hvalue
  · exact fun hitem => ⟨_, hitem, if_pos rfl⟩

/-- What an option takes is on the command line. -/
theorem mem_of_mem_split {flag : Flag} {value : String} {argv : List String}
    (h : Item.option flag value ∈ split argv) : value ∈ argv := by
  fun_induction split argv with
  | case1 => cases h
  | case2 token target htarget => simp at h
  | case3 token hnone =>
    rw [List.mem_singleton, Item.single] at h
    split at h <;> cases h
  | case4 token other rest target htarget ih =>
    obtain hhead | htail := List.mem_cons.mp h
    · cases hhead
      simp
    · simp [ih htail]
  | case5 token other rest hnone ih =>
    obtain hhead | htail := List.mem_cons.mp h
    · rw [Item.single] at hhead
      split at hhead <;> cases hhead
    · exact List.mem_cons_of_mem token (ih htail)

/-- The last accepted value comes from one of the items. -/
theorem mem_of_lastAccepted {α : Type} {accept : String → Option α} {flag : Flag}
    {items : List Item} {result : α} (h : lastAccepted accept flag items = some result) :
    ∃ value, Item.option flag value ∈ items ∧ accept value = some result := by
  obtain ⟨value, hvalue, haccept⟩ := List.mem_filterMap.mp (List.mem_of_getLast? h)
  exact ⟨value, mem_valuesOf_iff.mp hvalue, haccept⟩

/-- No decimal text has a NUL in it. -/
theorem NUL_notMem_repr (n : Nat) : NUL ∉ (Nat.repr n).toList := by
  intro hNUL
  have hdigit := Nat.isDigit_of_mem_toDigits (by decide) (by decide)
    (show NUL ∈ Nat.toDigits 10 n by simpa using hNUL)
  simp [NUL] at hdigit

/-- Joining names without NUL gives a text without NUL. -/
theorem NUL_notMem_joinNames {names : List String} (h : ∀ name ∈ names, NUL ∉ name.toList) :
    NUL ∉ (joinNames names).toList := by
  rw [joinNames, String.toList_ofList]
  induction names with
  | nil => simp
  | cons name rest ih =>
    cases rest with
    | nil => simpa using h
    | cons other rest =>
      have htail := ih fun name hname => h name (List.mem_cons_of_mem _ hname)
      have hhead := h name List.mem_cons_self
      simp only [List.map_cons, List.intercalate_cons_cons, List.mem_append, not_or] at htail ⊢
      exact ⟨⟨hhead, by decide⟩, htail⟩

/-- A thread limit that parsing sets is a positive `int`. -/
theorem contextOf_maxThreads {items : List Item} {limit : Int}
    (hlimit : (contextOf platform from_str items).maxThreads = some limit) :
    1 ≤ limit ∧ limit ≤ INT_MAX := by
  obtain ⟨value, _, haccept⟩ := mem_of_lastAccepted hlimit
  exact NumericOption.bounds_of_accept .maxthreads haccept

/-- What a command line asks for is within the bounds of the options. -/
theorem contextOf_wellFormed {items : List Item}
    (hvalues : ∀ flag value, Item.option flag value ∈ items → NUL ∉ value.toList) :
    (contextOf platform from_str items).WellFormed platform where
  seconds := by
    simp only [contextOf]
    cases hlast : lastAccepted (positiveInt platform) .seconds items with
    | none => decide
    | some number =>
      obtain ⟨value, _, haccept⟩ := mem_of_lastAccepted hlast
      exact NumericOption.bounds_of_accept .seconds haccept
  queueSize := by
    simp only [contextOf]
    cases hlast : lastAccepted (positiveSize platform) .queuesize items with
    | none =>
      have hwide := platform.int_le_long
      unfold INT_MAX at hwide
      simp only [Option.getD_none]
      omega
    | some number =>
      obtain ⟨value, _, haccept⟩ := mem_of_lastAccepted hlast
      exact NumericOption.bounds_of_accept .queuesize haccept
  maxThreads _ hlimit := contextOf_maxThreads hlimit
  filename := by
    intro filename hfilename
    exact hvalues .filename filename (mem_valuesOf_iff.mp (List.mem_of_getLast? hfilename))
  ignoreTests := by
    intro name hname
    simp only [contextOf, List.mem_toFinset, List.mem_flatMap, mem_valuesOf_iff] at hname
    obtain ⟨value, hvalue, hname⟩ := hname
    have hnonempty := (mem_namesOf_iff.mp hname).1
    simp only [namesOf, List.mem_map, List.mem_filter] at hname
    obtain ⟨token, ⟨htoken, _⟩, rfl⟩ := hname
    obtain ⟨hfree, hall⟩ := cstring.mem_of_mem_getlines htoken
    rw [String.toList_ofList]
    exact ⟨hnonempty, hfree, fun hNUL => hvalues .ignoretests value hvalue (hall NUL hNUL)⟩

section items

variable {ctx : TestContext} {names : List String}

/-- The items of a context have `--stress` exactly when it is set. -/
theorem stress_mem_items : Item.stress ∈ ctx.items names ↔ ctx.stress = true := by
  cases hstress : ctx.stress <;> simp [TestContext.items, hstress]

/-- Each option is given its own setting and nothing else. -/
theorem valuesOf_items (flag : Flag) : valuesOf flag (ctx.items names) =
    match flag with
    | .seconds => [Nat.repr ctx.seconds.toNat]
    | .loglevel => [ctx.logLevel.name]
    | .queuesize => [Nat.repr ctx.queueSize.toNat]
    | .filename => ctx.filename.toList
    | .maxthreads => ctx.maxThreads.toList.map fun limit => Nat.repr limit.toNat
    | .ignoretests => if names = [] then [] else [joinNames names] := by
  have hstress : (if ctx.stress then [Item.stress] else []).filterMap (Item.valueOf flag) = [] := by
    split <;> rfl
  simp only [valuesOf, TestContext.items, List.filterMap_append, hstress]
  cases ctx.filename <;> cases ctx.maxThreads <;> by_cases hnames : names = [] <;>
    cases flag <;> simp [Item.valueOf, hnames]

variable (hwell : ctx.WellFormed platform) (hnames : names.toFinset = ctx.ignoreTests)
  (hlevels : ∀ level, from_str level.name = level)

include hwell

/-- The printed duration of a well-formed context is read back. -/
theorem TestContext.WellFormed.seconds_repr :
    positiveInt platform (Nat.repr ctx.seconds.toNat) = some ctx.seconds :=
  NumericOption.accept_repr .seconds hwell.seconds.1 hwell.seconds.2

/-- The printed queue size of a well-formed context is read back. -/
theorem TestContext.WellFormed.queueSize_repr :
    positiveSize platform (Nat.repr ctx.queueSize.toNat) = some ctx.queueSize :=
  NumericOption.accept_repr .queuesize hwell.queueSize.1 hwell.queueSize.2

/-- The printed thread limit of a well-formed context is read back. -/
theorem TestContext.WellFormed.maxThreads_repr {limit : Int} (hlimit : ctx.maxThreads = some limit) :
    positiveInt platform (Nat.repr limit.toNat) = some limit :=
  NumericOption.accept_repr .maxthreads (hwell.maxThreads limit hlimit).1
    (hwell.maxThreads limit hlimit).2

omit hwell in
include hlevels in
theorem knownLevel_name (level : Level) : knownLevel from_str level.name = some level := by
  simp only [knownLevel, hlevels]
  cases level <;> simp [Level.name]

include hnames in
/-- The joined names are split into the ignored tests again. -/
theorem TestContext.WellFormed.ignored_joinNames (name : String) (hsome : names ≠ []) :
    name ∈ namesOf (joinNames names) ↔ name ∈ ctx.ignoreTests := by
  have hgood : ∀ name ∈ names, name ≠ "" ∧ ',' ∉ name.toList := fun name hname =>
    ⟨(hwell.ignoreTests name (by simpa [← hnames] using hname)).1,
      (hwell.ignoreTests name (by simpa [← hnames] using hname)).2.1⟩
  rw [mem_namesOf_joinNames hsome hgood, ← hnames, List.mem_toFinset]

include hnames hlevels in
/-- The items of a well-formed context give that context back. -/
theorem TestContext.WellFormed.contextOf_items :
    contextOf platform from_str (ctx.items names) = ctx := by
  have hignored : ((valuesOf .ignoretests (ctx.items names)).flatMap namesOf).toFinset =
      ctx.ignoreTests := by
    ext name
    rw [valuesOf_items]
    by_cases hsome : names = []
    · simp [hsome, ← hnames]
    · simp [hsome, hwell.ignored_joinNames hnames name hsome]
  have hlimit : lastAccepted (positiveInt platform) .maxthreads (ctx.items names) =
      ctx.maxThreads := by
    rw [lastAccepted, valuesOf_items]
    cases hmax : ctx.maxThreads with
    | none => rfl
    | some limit => simp [hwell.maxThreads_repr hmax]
  have hfilename : (valuesOf .filename (ctx.items names)).getLast? = ctx.filename := by
    rw [valuesOf_items]
    cases ctx.filename <;> rfl
  unfold contextOf
  rw [hignored, hlimit, hfilename]
  simp [lastAccepted, valuesOf_items, stress_mem_items, hwell.seconds_repr, hwell.queueSize_repr,
    knownLevel_name hlevels]

include hlevels in
/-- Every item of a well-formed context is accepted. -/
theorem TestContext.WellFormed.accepted_items {item : Item} (hitem : item ∈ ctx.items names) :
    item.Accepted platform from_str := by
  simp only [TestContext.items, List.mem_append, List.mem_ite_nil_right, List.mem_ite_nil_left,
    List.mem_cons, List.mem_map, Option.mem_toList, List.not_mem_nil, or_false] at hitem
  obtain ((((⟨_, rfl⟩ | rfl | rfl | rfl) | ⟨_, _, rfl⟩) | ⟨limit, hlimit, rfl⟩) | ⟨_, rfl⟩) := hitem
  · trivial
  · exact fun _ => by simp [TestContext.setOption, hwell.seconds_repr]
  · exact fun _ => by simp [TestContext.setOption, knownLevel_name hlevels]
  · exact fun _ => by simp [TestContext.setOption, hwell.queueSize_repr]
  · exact fun _ => rfl
  · exact fun _ => by simp [TestContext.setOption, hwell.maxThreads_repr hlimit]
  · exact fun _ => rfl

/-- No argument of a well-formed context has a NUL in it. -/
theorem TestContext.WellFormed.argument_items {argument : String}
    (hargument : argument ∈ (ctx.items names).flatMap Item.tokens)
    (hfree : ∀ name ∈ names, NUL ∉ name.toList) : NUL ∉ argument.toList := by
  obtain ⟨item, hitem, htoken⟩ := List.mem_flatMap.mp hargument
  simp only [TestContext.items, List.mem_append, List.mem_ite_nil_right, List.mem_ite_nil_left,
    List.mem_cons, List.mem_map, Option.mem_toList, List.not_mem_nil, or_false] at hitem
  obtain ((((⟨_, rfl⟩ | rfl | rfl | rfl) | ⟨filename, hfilename, rfl⟩) | ⟨limit, hlimit, rfl⟩) |
    ⟨_, rfl⟩) := hitem
  all_goals
    simp only [Item.tokens, List.mem_cons, List.not_mem_nil, or_false] at htoken
  · rw [htoken]
    decide
  · obtain rfl | rfl := htoken
    · decide
    · exact NUL_notMem_repr _
  · obtain rfl | rfl := htoken
    · decide
    · cases ctx.logLevel <;> decide
  · obtain rfl | rfl := htoken
    · decide
    · exact NUL_notMem_repr _
  · obtain rfl | rfl := htoken
    · decide
    · exact hwell.filename _ hfilename
  · obtain rfl | rfl := htoken
    · decide
    · exact NUL_notMem_repr _
  · obtain rfl | rfl := htoken
    · decide
    · exact NUL_notMem_joinNames hfree

end items

end render

/-- What `parse` gives is within the bounds of the options, whatever the arguments, and every
configuration within them is what `parse` gives, without a message, for the options that spell
it out. -/
theorem TestContext.parse_items (platform : Platform) (from_str : String → Level)
    (hlevels : ∀ level, from_str level.name = level) :
    (∀ (argv : List String) (ctx : TestContext) (printed : List String),
      (∀ argument ∈ argv, NUL ∉ argument.toList) →
      TestContext.parse platform from_str argv = .ok (ctx, printed) → ctx.WellFormed platform) ∧
    ∀ (ctx : TestContext) (names : List String) (program : String), ctx.WellFormed platform →
      names.toFinset = ctx.ignoreTests →
      (∀ argument ∈ (ctx.items names).flatMap Item.tokens, NUL ∉ argument.toList) ∧
      TestContext.parse platform from_str (program :: (ctx.items names).flatMap Item.tokens) =
        .ok (ctx, []) := by
  constructor
  · intro argv ctx printed hargv hparse
    obtain ⟨messages, hcontext⟩ := TestContext.parse_eq_contextOf platform from_str argv
    rw [hparse] at hcontext
    cases hcontext
    refine contextOf_wellFormed fun flag value hvalue => hargv value ?_
    exact List.mem_of_mem_drop (mem_of_mem_split hvalue)
  · intro ctx names program hwell hnames
    constructor
    · intro argument hargument
      refine hwell.argument_items hargument fun name hname => ?_
      exact (hwell.ignoreTests name (by simpa [← hnames] using hname)).2.2
    · have hparse := TestContext.parseFrom_of_accepted (i := 1)
        (fun item hitem => hwell.accepted_items hlevels hitem) {} []
        (List.drop_one (l := program :: (ctx.items names).flatMap Item.tokens))
      rw [foldl_apply_eq_contextOf, hwell.contextOf_items hnames hlevels] at hparse
      exact hparse

/-- A run of thirty seconds on four threads, without two of the tests. -/
theorem parse_items_all_options :
    TestContext.parse lp64
      (fun name =>
        if name = "trace" then .trace else if name = "debug" then .debug
        else if name = "info" then .info else if name = "warn" then .warn
        else if name = "error" then .err else if name = "critical" then .critical else .off)
      ["main", "--stress", "--seconds", "30", "--loglevel", "warn", "--queuesize", "1024",
        "--filename", "run.log", "--maxthreads", "4", "--ignoretests", "level,timebase"] =
      .ok ({ seconds := 30, stress := true, logLevel := .warn, queueSize := 1024,
             filename := some "run.log", maxThreads := some 4,
             ignoreTests := {"level", "timebase"} }, []) := by
  refine ((TestContext.parse_items lp64 _ ?_).2
    { seconds := 30, stress := true, logLevel := .warn, queueSize := 1024,
      filename := some "run.log", maxThreads := some 4,
      ignoreTests := {"level", "timebase"} }
    ["level", "timebase"] "main" ?_ rfl).2
  · intro level
    cases level <;> rfl
  · constructor <;> simp [INT_MAX, lp64, NUL]

end spdlogger.test_context
