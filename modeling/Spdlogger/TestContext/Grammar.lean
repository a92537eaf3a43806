import Mathlib.Data.Finset.Union
import Spdlogger.TestContext.Parse

namespace spdlogger.test_context

/-- The option, as it is written. -/
def Flag.token : Flag → String
  | .seconds => "--seconds"
  | .loglevel => "--loglevel"
  | .queuesize => "--queuesize"
  | .filename => "--filename"
  | .maxthreads => "--maxthreads"
  | .ignoretests => "--ignoretests"

/-- The option that is written so. -/
def Flag.ofToken (token : String) : Option Flag :=
  [Flag.seconds, .loglevel, .queuesize, .filename, .maxthreads, .ignoretests].find?
    fun flag => flag.token = token

/-- A token is recognised as a flag exactly when it is the text of the flag. -/
theorem Flag.ofToken_eq_some_iff {token : String} {flag : Flag} :
    Flag.ofToken token = some flag ↔ token = flag.token := by
  constructor
  · intro hfound
    have htoken := List.find?_some hfound
    exact (of_decide_eq_true htoken).symm
  · rintro rfl
    cases flag <;> rfl

/-- A token that is no flag differs from the text of each flag. -/
theorem Flag.ne_token_of_ofToken {token : String} (hnone : Flag.ofToken token = none)
    (flag : Flag) : token ≠ flag.token := by
  intro htoken
  rw [Flag.ofToken_eq_some_iff.mpr htoken] at hnone
  cases hnone

/-- What the tokens of a command line are read as. -/
inductive Item where
  | stress
  | option (flag : Flag) (value : String)
  | dangling (flag : Flag)
  | other (token : String)
  deriving DecidableEq, Repr

/-- A token that takes no value. -/
def Item.single (token : String) : Item := if token = "--stress" then .stress else .other token

/-- The command line from left to right. An option takes the next token, whatever it is. -/
def split : List String → List Item
  | [] => []
  | [token] =>
    match Flag.ofToken token with
    | some flag => [.dangling flag]
    | none => [.single token]
  | token :: value :: rest =>
    match Flag.ofToken token with
    | some flag => .option flag value :: split rest
    | none => .single token :: split (value :: rest)

/-- A token that is no flag is an item of its own. -/
theorem split_cons_of_none {token : String} (hnone : Flag.ofToken token = none)
    (rest : List String) : split (token :: rest) = .single token :: split rest := by
  cases rest <;> simp [split, hnone]

/-- A flag with a token after it is one item, whatever the value is. -/
theorem split_cons_cons_of_some {token : String} {flag : Flag}
    (hflag : Flag.ofToken token = some flag) (value : String) (rest : List String) :
    split (token :: value :: rest) = .option flag value :: split rest := by
  simp [split, hflag]

section Items

variable (platform : Platform) (from_str : String → Level)

/-- What an item of the command line does to the settings. -/
def Item.apply (ctx : TestContext) : Item → TestContext
  | .stress => { ctx with stress := true }
  | .option flag value => (ctx.setOption platform from_str flag value).1
  | .dangling _ | .other _ => ctx

/-- The branch of an option reads the argument after it. -/
theorem TestContext.parseArgument_of_flag (ctx : TestContext) {argv : List String} {i : Nat}
    {flag : Flag} {value : String} (htoken : argv[i]? = some flag.token)
    (hvalue : argv[i + 1]? = some value) :
    ctx.parseArgument platform from_str argv i =
      .ok (ctx.setOption platform from_str flag value, true) := by
  have hnext : i + 1 < argv.length := (List.getElem?_eq_some_iff.mp hvalue).1
  unfold TestContext.parseArgument TestContext.takeValue readArgument
  rw [htoken, hvalue]
  cases flag <;> simp [Flag.token, hnext, bind, Except.bind, pure, Except.pure]

/-- The body of the loop takes one item off the command line. -/
theorem TestContext.parseArgument_eq (ctx : TestContext) {argv : List String} {i : Nat}
    (hi : i < argv.length) : ∃ item message advanced,
      ctx.parseArgument platform from_str argv i =
        .ok ((item.apply platform from_str ctx, message), advanced) ∧
      split (argv.drop i) = item :: split (argv.drop (i + advanced.toNat + 1)) := by
  have hread : readArgument argv i = .ok argv[i] := by simp [readArgument, hi]
  have hdrop : argv.drop i = argv[i] :: argv.drop (i + 1) := List.drop_eq_getElem_cons hi
  rw [hdrop]
  cases hflag : Flag.ofToken argv[i] with
  | none =>
    unfold TestContext.parseArgument
    rw [hread]
    have hne := Flag.ne_token_of_ofToken hflag
    refine ⟨.single argv[i], [], false, ?_, split_cons_of_none hflag _⟩
    have hseconds := hne .seconds
    have hloglevel := hne .loglevel
    have hqueuesize := hne .queuesize
    have hfilename := hne .filename
    have hmaxthreads := hne .maxthreads
    have hignoretests := hne .ignoretests
    simp only [Flag.token] at hseconds hloglevel hqueuesize hfilename hmaxthreads hignoretests
    by_cases hstress : argv[i] = "--stress"
    · simp [hstress, Item.single, Item.apply, bind, Except.bind, pure, Except.pure]
    · simp [hstress, hseconds, hloglevel, hqueuesize, hfilename, hmaxthreads, hignoretests,
        Item.single, Item.apply, bind, Except.bind, pure, Except.pure]
  | some flag =>
    have htoken := Flag.ofToken_eq_some_iff.mp hflag
    by_cases hnext : i + 1 < argv.length
    · rw [List.drop_eq_getElem_cons hnext]
      refine ⟨.option flag argv[i + 1], (ctx.setOption platform from_str flag argv[i + 1]).2, true,
        ?_, split_cons_cons_of_some hflag _ _⟩
      exact ctx.parseArgument_of_flag platform from_str (htoken ▸ List.getElem?_eq_getElem hi)
        (List.getElem?_eq_getElem hnext)
    · unfold TestContext.parseArgument
      rw [hread, htoken]
      refine ⟨.dangling flag, [], false, ?_, ?_⟩
      · cases flag <;>
          simp [Flag.token, hnext, Item.apply, bind, Except.bind, pure, Except.pure]
      · have hend : argv.drop (i + 1) = [] := List.drop_eq_nil_of_le (Nat.le_of_not_lt hnext)
        simp [hend, split, Flag.ofToken_eq_some_iff.mpr rfl]

/-- The loop from index `i` on is the fold of the items it splits the rest into. -/
theorem TestContext.parseFrom_eq (ctx : TestContext) (printed : List String) (argv : List String)
    (i : Nat) : ∃ messages, ctx.parseFrom platform from_str printed argv i =
      .ok ((split (argv.drop i)).foldl (fun ctx item => item.apply platform from_str ctx) ctx,
        messages) := by
  fun_induction TestContext.parseFrom platform from_str ctx printed argv i with
  | case1 ctx printed i hi index herror =>
    obtain ⟨_, _, _, hok, _⟩ := ctx.parseArgument_eq platform from_str hi
    rw [herror] at hok
    cases hok
  | case2 ctx printed i hi after message advanced hok ih =>
    obtain ⟨item, _, _, hitem, hsplit⟩ := ctx.parseArgument_eq platform from_str hi
    rw [hok] at hitem
    cases hitem
    rw [hsplit, List.foldl_cons]
    exact ih
  | case3 ctx printed i hend =>
    rw [List.drop_eq_nil_of_le (Nat.le_of_not_lt hend)]
    exact ⟨printed, rfl⟩

end Items

/-- The value an item gives to an option. -/
def Item.valueOf (flag : Flag) : Item → Option String
  | .option target value => if target = flag then some value else none
  | .stress | .dangling _ | .other _ => none

/-- The values given to an option, in the order of the command line. -/
def valuesOf (flag : Flag) (items : List Item) : List String := items.filterMap (Item.valueOf flag)

/-- What comes of the last value given to an option that is accepted. -/
def lastAccepted {α : Type} (accept : String → Option α) (flag : Flag) (items : List Item) :
    Option α :=
  ((valuesOf flag items).filterMap accept).getLast?

/-- One further item adds its value, when it is an item of the flag. -/
theorem valuesOf_concat (flag : Flag) (items : List Item) (item : Item) :
    valuesOf flag (items ++ [item]) = valuesOf flag items ++ (item.valueOf flag).toList := by
  unfold valuesOf
  rw [List.filterMap_append]
  cases h : item.valueOf flag <;> simp [h]

/-- One further item takes over when its value is accepted. -/
theorem lastAccepted_concat {α : Type} (accept : String → Option α) (flag : Flag)
    (items : List Item) (item : Item) :
    lastAccepted accept flag (items ++ [item]) =
      ((item.valueOf flag).bind accept).or (lastAccepted accept flag items) := by
  unfold lastAccepted
  rw [valuesOf_concat, List.filterMap_append, List.getLast?_append]
  cases item.valueOf flag with
  | none => rfl
  | some value => cases h : accept value <;> simp [h]

section Context

variable (platform : Platform) (from_str : String → Level)

/-- The configuration a command line stands for. -/
def contextOf (items : List Item) : TestContext where
  seconds := (lastAccepted (positiveInt platform) .seconds items).getD 5
  stress := Item.stress ∈ items
  logLevel := (lastAccepted (knownLevel from_str) .loglevel items).getD .info
  queueSize := (lastAccepted (positiveSize platform) .queuesize items).getD 8192
  filename := (valuesOf .filename items).getLast?
  maxThreads := lastAccepted (positiveInt platform) .maxthreads items
  ignoreTests := ((valuesOf .ignoretests items).flatMap namesOf).toFinset

/-- Inserting names one by one adds exactly these names. -/
theorem foldl_insert_ignoreTests (ctx : TestContext) (names : List String) :
    names.foldl (fun ctx token =>
      { ctx with ignoreTests := insert token ctx.ignoreTests }) ctx =
      { ctx with ignoreTests := ctx.ignoreTests ∪ names.toFinset } := by
  induction names generalizing ctx with
  | nil => simp
  | cons name rest ih =>
    rw [List.foldl_cons, ih, List.toFinset_cons, Finset.union_insert, Finset.insert_union]

/-- The branch of an option brings its value into account. -/
theorem contextOf_concat (items : List Item) (item : Item) :
    contextOf platform from_str (items ++ [item]) =
      item.apply platform from_str (contextOf platform from_str items) := by
  unfold contextOf
  simp only [lastAccepted_concat, valuesOf_concat]
  cases item with
  | stress | dangling | other => simp [Item.valueOf, Item.apply]
  | option flag value =>
    cases flag with
    | seconds | maxthreads =>
      cases haccept : positiveInt platform value <;>
        simp [Item.valueOf, Item.apply, TestContext.setOption, haccept]
    | loglevel =>
      cases haccept : knownLevel from_str value <;>
        simp [Item.valueOf, Item.apply, TestContext.setOption, haccept]
    | queuesize =>
      cases haccept : positiveSize platform value <;>
        simp [Item.valueOf, Item.apply, TestContext.setOption, haccept]
    | filename => simp [Item.valueOf, Item.apply, TestContext.setOption]
    | ignoretests =>
      simp [Item.valueOf, Item.apply, TestContext.setOption, foldl_insert_ignoreTests]

/-- Applying the items one after another gives the context that the last accepted values give. -/
theorem foldl_apply_eq_contextOf (items : List Item) :
    items.foldl (fun ctx item => item.apply platform from_str ctx) {} =
      contextOf platform from_str items := by
  induction items using List.reverseRecOn with
  | nil => simp [contextOf, lastAccepted, valuesOf]
  | append_singleton items item ih =>
    rw [List.foldl_append, ih, contextOf_concat]
    rfl

/-- Parsing is splitting the arguments into items and reading each setting off them. -/
theorem TestContext.parse_eq_contextOf (argv : List String) : ∃ printed,
    TestContext.parse platform from_str argv =
      .ok (contextOf platform from_str (split (argv.drop 1)), printed) := by
  obtain ⟨printed, hparse⟩ := TestContext.parseFrom_eq platform from_str {} [] argv 1
  rw [foldl_apply_eq_contextOf] at hparse
  exact ⟨printed, hparse⟩

/-- Of the items only the values of each option count, in their order. -/
theorem contextOf_congr {items other : List Item}
    (hvalues : ∀ flag, valuesOf flag items = valuesOf flag other)
    (hstress : Item.stress ∈ items ↔ Item.stress ∈ other) :
    contextOf platform from_str items = contextOf platform from_str other := by
  simp only [contextOf, lastAccepted, hvalues, hstress]

end Context

/-- A name is ignored if it is one of the non-empty pieces. -/
theorem mem_namesOf_iff {name value : String} :
    name ∈ namesOf value ↔ name ≠ "" ∧ name.toList ∈ value.toList.splitOn ',' := by
  unfold namesOf
  simp only [List.mem_map, List.mem_filter, Bool.not_eq_true', List.isEmpty_eq_false_iff]
  constructor
  · rintro ⟨token, ⟨htoken, hne⟩, rfl⟩
    rw [String.toList_ofList]
    refine ⟨?_, (cstring.mem_getlines_iff hne).mp htoken⟩
    intro hempty
    have hlist := congrArg String.toList hempty
    rw [String.toList_ofList] at hlist
    exact hne hlist
  · rintro ⟨hname, hpiece⟩
    have hne : name.toList ≠ [] := fun h => hname (String.toList_inj.mp h)
    exact ⟨name.toList, ⟨(cstring.mem_getlines_iff hne).mpr hpiece, hne⟩, String.ofList_toList⟩

/-- The tokens of an item. -/
def Item.tokens : Item → List String
  | .stress => ["--stress"]
  | .option flag value => [flag.token, value]
  | .dangling flag => [flag.token]
  | .other token => [token]

/-- The items that can stand before others. -/
def Item.Complete : Item → Prop
  | .stress | .option _ _ => True
  | .dangling _ => False
  | .other token => token ≠ "--stress" ∧ Flag.ofToken token = none

/-- The tokens of a complete item split into that item again. -/
theorem split_tokens {item : Item} (hcomplete : item.Complete) (rest : List String) :
    split (item.tokens ++ rest) = item :: split rest := by
  cases item with
  | stress => exact split_cons_of_none rfl rest
  | option flag value =>
    exact split_cons_cons_of_some (Flag.ofToken_eq_some_iff.mpr rfl) value rest
  | dangling => cases hcomplete
  | other token =>
    obtain ⟨hstress, hnone⟩ := hcomplete
    have hsplit := split_cons_of_none hnone rest
    rw [Item.single, if_neg hstress] at hsplit
    exact hsplit

/-- The tokens of complete items split into these items again. -/
theorem split_flatMap_tokens {items : List Item} (hcomplete : ∀ item ∈ items, item.Complete)
    (rest : List String) : split (items.flatMap Item.tokens ++ rest) = items ++ split rest := by
  induction items with
  | nil => rfl
  | cons item items ih =>
    rw [List.flatMap_cons, List.append_assoc, split_tokens (hcomplete item List.mem_cons_self),
      ih fun other hother => hcomplete other (List.mem_cons_of_mem _ hother)]
    rfl

/-- Two items that are not values of one option. -/
def Item.Apart (first second : Item) : Prop :=
  ∀ flag, first.valueOf flag = none ∨ second.valueOf flag = none

/-- Neighbouring items of different options may change places. -/
theorem contextOf_swap (platform : Platform) (from_str : String → Level) {first second : Item}
    (hapart : first.Apart second) (before after : List Item) :
    contextOf platform from_str (before ++ first :: second :: after) =
      contextOf platform from_str (before ++ second :: first :: after) := by
  refine contextOf_congr platform from_str (fun flag => ?_) ?_
  · unfold valuesOf
    obtain hnone | hnone := hapart flag
    · simp [hnone, List.filterMap_append, List.filterMap_cons]
    · simp [hnone, List.filterMap_append, List.filterMap_cons]
  · simp only [List.mem_append, List.mem_cons]
    tauto

/-- `parse` reads no argument there is not. Each setting is that of the last value its option
accepts, or the default, and the names to ignore are the non-empty pieces of all the lists.
Groups of different options can be swapped. -/
theorem TestContext.parse_follows_grammar (platform : Platform) (from_str : String → Level) :
    (∀ argv : List String, ∃ ctx printed,
      TestContext.parse platform from_str argv = .ok (ctx, printed) ∧
      (ctx.stress = true ↔ Item.stress ∈ split (argv.drop 1)) ∧
      ctx.seconds = (lastAccepted (positiveInt platform) .seconds (split (argv.drop 1))).getD 5 ∧
      ctx.logLevel =
        (lastAccepted (knownLevel from_str) .loglevel (split (argv.drop 1))).getD .info ∧
      ctx.queueSize =
        (lastAccepted (positiveSize platform) .queuesize (split (argv.drop 1))).getD 8192 ∧
      ctx.filename = (valuesOf .filename (split (argv.drop 1))).getLast? ∧
      ctx.maxThreads = lastAccepted (positiveInt platform) .maxthreads (split (argv.drop 1)) ∧
      ∀ name, ctx.shouldRun name = false ↔ name ≠ "" ∧
        ∃ value ∈ valuesOf .ignoretests (split (argv.drop 1)),
          name.toList ∈ value.toList.splitOn ',') ∧
    ∀ (program : String) (before : List Item) (first second : Item) (rest : List String),
      (∀ item ∈ before, item.Complete) → first.Complete → second.Complete → first.Apart second →
      (TestContext.parse platform from_str
        (program :: (before.flatMap Item.tokens ++ (first.tokens ++ (second.tokens ++ rest))))).map
          Prod.fst =
        (TestContext.parse platform from_str
          (program :: (before.flatMap Item.tokens ++ (second.tokens ++ (first.tokens ++ rest))))).map
            Prod.fst := by
  constructor
  · intro argv
    obtain ⟨printed, hparse⟩ := TestContext.parse_eq_contextOf platform from_str argv
    refine ⟨_, printed, hparse, by simp [contextOf], rfl, rfl, rfl, rfl, rfl, fun name => ?_⟩
    simp only [TestContext.shouldRun, contextOf, decide_eq_false_iff_not, not_not,
      List.mem_toFinset, List.mem_flatMap, mem_namesOf_iff]
    constructor
    · rintro ⟨value, hvalue, hname, hpiece⟩
      exact ⟨hname, value, hvalue, hpiece⟩
    · rintro ⟨hname, value, hvalue, hpiece⟩
      exact ⟨value, hvalue, hname, hpiece⟩
  · intro program before first second rest hbefore hfirst hsecond hapart
    obtain ⟨printed, hparse⟩ := TestContext.parse_eq_contextOf platform from_str
      (program :: (before.flatMap Item.tokens ++ (first.tokens ++ (second.tokens ++ rest))))
    obtain ⟨swapped, hswapped⟩ := TestContext.parse_eq_contextOf platform from_str
      (program :: (before.flatMap Item.tokens ++ (second.tokens ++ (first.tokens ++ rest))))
    rw [List.drop_succ_cons, List.drop_zero, split_flatMap_tokens hbefore, split_tokens hfirst,
      split_tokens hsecond] at hparse
    rw [List.drop_succ_cons, List.drop_zero, split_flatMap_tokens hbefore, split_tokens hsecond,
      split_tokens hfirst] at hswapped
    rw [hparse, hswapped, contextOf_swap platform from_str hapart]
    rfl

/-- A value that looks like a flag belongs to its option. -/
theorem parse_follows_grammar_flag_as_value :
    (TestContext.parse lp64 (fun _ => .off)
      ["main", "--seconds", "7", "--filename", "--stress", "--maxthreads"]).map Prod.fst =
      (TestContext.parse lp64 (fun _ => .off)
        ["main", "--filename", "--stress", "--seconds", "7", "--maxthreads"]).map Prod.fst :=
  (TestContext.parse_follows_grammar lp64 fun _ => .off).2 "main" [] (.option .seconds "7")
    (.option .filename "--stress") ["--maxthreads"] (by simp) trivial trivial
    (by rintro (_ | _) <;> simp [Item.valueOf])

end spdlogger.test_context
