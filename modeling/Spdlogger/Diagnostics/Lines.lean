import Mathlib.Data.List.Perm.Basic
import Spdlogger.Diagnostics.Locks

namespace spdlogger.diagnostics

/-- The value of the 64-bit counter after `k` increments. -/
def counter (k : Nat) : Int := Int.bmod k (2 ^ 64)

/-- The keys of the metrics, in the order in which they are written first. -/
def metricKeys : List String := ["iteration", "rate", "label"]

/-- The three metrics of one iteration. -/
def metricsOf (stress : Bool) (i : Int) : List (String × MetricValue) :=
  [("iteration", .int64 i), ("rate", .double (rate i)), ("label", .string (label stress))]

/-- The text of some entries, as the loop over the map writes it. -/
def textOf (entries : List (String × MetricValue)) : String :=
  String.join (entries.map fun entry => formatEntry entry.1 entry.2)

/-- A whole line: each metric of one iteration once, in some order. -/
def IsLine (stress : Bool) (i : Int) (line : String) : Prop :=
  ∃ entries, entries.Perm (metricsOf stress i) ∧ line = textOf entries ++ "\n"

/-- The metrics under these keys, in their order. -/
def entriesOf (metrics : Metrics) (keys : List String) : List (String × MetricValue) :=
  keys.filterMap fun key => (metrics.lookup key).map fun value => (key, value)

/-- The line the collector is in the middle of. -/
def State.openLine (s : State) : String :=
  match s.collector with
  | .appending order index => textOf (entriesOf s.metrics (order.take index))
  | _ => ""

/-- The iteration the collector is about to write. -/
def CollectorPhase.current : CollectorPhase → Option Int
  | .locking i | .writingIteration i | .writingRate i | .writingLabel i => some i
  | _ => none

/-- How many of the metrics are those of the iteration whose line is not ended. -/
def CollectorPhase.written : CollectorPhase → Nat
  | .writingRate _ => 1
  | .writingLabel _ => 2
  | .iterating | .appending _ _ => 3
  | _ => 0

/-- Whether an iteration is fetched whose line is not ended. -/
def CollectorPhase.fetched : CollectorPhase → Bool
  | .testing | .fetching | .sleeping | .exited => false
  | _ => true

/-- The collector and its map, with the lines that are ended. -/
structure State.Collected (stress : Bool) (lines : List String) (s : State) : Prop where
  counted : s.iteration = counter (lines.length + if s.collector.fetched then 1 else 0)
  current : ∀ i, s.collector.current = some i → i = counter lines.length
  values : ∀ entry ∈ (metricsOf stress (counter lines.length)).take s.collector.written,
    s.metrics.lookup entry.1 = some entry.2
  keys : ∀ key ∈ s.metrics, key ∈ metricKeys
  full : lines ≠ [] → ∀ key ∈ metricKeys, key ∈ s.metrics
  ordered : ∀ order index, s.collector = .appending order index → order.Perm metricKeys

/-- The lines drained, chunk by chunk, and those in the buffer. -/
structure State.Buffered (stress : Bool) (chunks : List (List String)) (unread : List String)
    (s : State) : Prop where
  lines : ∀ i line, (chunks.flatten ++ unread)[i]? = some line → IsLine stress (counter i) line
  drained : s.drained = chunks.map String.join
  logBuffer : s.logBuffer = String.join unread ++ s.openLine

/-- The text the reporter has drained and not yet come to log. -/
def ReporterPhase.inHand : ReporterPhase → List String
  | .counting drainedBuffer | .logging drainedBuffer _ => [drainedBuffer]
  | _ => []

/-- The texts that are reported: an empty one is passed over. -/
def nonEmpty (texts : List String) : List String := texts.filter fun text => text ≠ ""

theorem nonEmpty_append (first second : List String) :
    nonEmpty (first ++ second) = nonEmpty first ++ nonEmpty second :=
  List.filter_append _ _

/-- A text that is not empty has found the map full, and the reports are of the drained
texts that are not empty, in their order. -/
structure State.Reported (lines : List String) (s : State) : Prop where
  counting : ∀ drainedBuffer, s.reporter = .counting drainedBuffer → drainedBuffer ≠ "" → lines ≠ []
  logging : ∀ drainedBuffer metricCount, s.reporter = .logging drainedBuffer metricCount →
    drainedBuffer ≠ "" → metricCount = 3
  counts : ∀ report ∈ s.reports, report.1 = 3
  texts : s.reports.map Prod.snd ++ nonEmpty s.reporter.inHand = nonEmpty s.drained

/-- Counting one further line is the wrapping increment of `int64_t`. -/
theorem counter_succ (k : Nat) : Int.bmod (counter k + 1) (2 ^ 64) = counter (k + 1) := by
  unfold counter
  rw [Int.bmod_add_bmod]
  rfl

/-- Reading back the keys of a list of entries the map holds gives the list itself. -/
theorem entriesOf_eq {metrics : Metrics} {entries : List (String × MetricValue)}
    (hvalues : ∀ entry ∈ entries, metrics.lookup entry.1 = some entry.2) :
    entriesOf metrics (entries.map Prod.fst) = entries := by
  unfold entriesOf
  rw [List.filterMap_map]
  refine (List.filterMap_congr fun entry hentry => ?_).trans List.filterMap_some
  simp [hvalues entry hentry]

/-- The loop over a map with the metrics of an iteration writes a line. -/
theorem isLine_of_values {stress : Bool} {i : Int} {metrics : Metrics} {order : List String}
    (hvalues : ∀ entry ∈ metricsOf stress i, metrics.lookup entry.1 = some entry.2)
    (horder : order.Perm metricKeys) :
    IsLine stress i (textOf (entriesOf metrics order) ++ "\n") := by
  refine ⟨entriesOf metrics order, ?_, rfl⟩
  have hall : entriesOf metrics metricKeys = metricsOf stress i := entriesOf_eq hvalues
  rw [← hall]
  exact horder.filterMap _

/-- The next entry of the loop. -/
theorem textOf_take_succ {metrics : Metrics} {order : List String} {index : Nat} {key : String}
    {value : MetricValue} (hkey : order[index]? = some key)
    (hvalue : metrics.lookup key = some value) :
    textOf (entriesOf metrics (order.take (index + 1))) =
      textOf (entriesOf metrics (order.take index)) ++ formatEntry key value := by
  rw [List.take_add_one, hkey]
  simp [entriesOf, textOf, List.filterMap_append, String.join_append, hvalue]

/-- Once every metric has been set, the keys of the map are the metric keys in some order. -/
theorem State.Collected.keys_perm {stress : Bool} {lines : List String} {s : State}
    (h : s.Collected stress lines) (hall : ∀ key ∈ metricKeys, key ∈ s.metrics) :
    s.metrics.keys.Perm metricKeys := by
  have hnodup : metricKeys.Nodup := by decide
  refine (List.perm_ext_iff_of_nodup s.metrics.keys_nodup hnodup).mpr fun key => ?_
  exact ⟨fun hkey => h.keys key (AList.mem_keys.mpr hkey),
    fun hkey => AList.mem_keys.mp (hall key hkey)⟩

/-- The metrics of an iteration have keys of their own. -/
theorem metricsOf_fst_ne {stress : Bool} {i : Int} {count : Nat} {entry : String × MetricValue}
    {key : String} {value : MetricValue} (hearlier : entry ∈ (metricsOf stress i).take count)
    (hentry : (metricsOf stress i)[count]? = some (key, value)) : entry.1 ≠ key := by
  have hnodup : ((metricsOf stress i).map Prod.fst).Nodup := by
    have hkeys : (metricsOf stress i).map Prod.fst = metricKeys := rfl
    rw [hkeys]
    decide
  have hsub := hnodup.sublist ((List.take_sublist (count + 1) _).map Prod.fst)
  rw [List.take_add_one, hentry, List.map_append, List.nodup_append] at hsub
  exact hsub.2.2 entry.1 (List.mem_map_of_mem hearlier) key (by simp)

/-- A write into the map, on the way to the next line. -/
theorem State.Collected.write {stress : Bool} {lines : List String} {s : State}
    (h : s.Collected stress lines) (next : State) {i : Int} (hcurrent : s.collector.current = some i)
    (hfetched : s.collector.fetched) {key : String} {value : MetricValue}
    (hentry : (metricsOf stress i)[s.collector.written]? = some (key, value))
    (hmetrics : next.metrics = s.metrics.insert key value)
    (hiteration : next.iteration = s.iteration)
    (hfetchedNext : next.collector.fetched)
    (hwritten : next.collector.written = s.collector.written + 1)
    (hcurrentNext : ∀ later, next.collector.current = some later → later = i)
    (hloop : ∀ order index, next.collector ≠ .appending order index) :
    next.Collected stress lines := by
  have hi := h.current i hcurrent
  have hkey : key ∈ metricKeys := by
    have hmem := List.mem_map_of_mem (f := Prod.fst) (List.mem_of_getElem? hentry)
    exact hmem
  refine ⟨?_, ?_, ?_, ?_, ?_, fun order index happending => absurd happending (hloop order index)⟩
  · rw [hiteration, h.counted, hfetched, hfetchedNext]
  · exact fun later hlater => (hcurrentNext later hlater).trans hi
  · rw [hwritten, ← hi, List.take_add_one, hentry, hmetrics]
    intro entry hmem
    rcases List.mem_append.mp hmem with hearlier | hnew
    · rw [AList.lookup_insert_ne (metricsOf_fst_ne hearlier hentry)]
      rw [hi] at hearlier
      exact h.values entry hearlier
    · rw [Option.toList_some, List.mem_singleton] at hnew
      rw [hnew]
      exact AList.lookup_insert s.metrics
  · rw [hmetrics]
    intro other hother
    obtain rfl | hother := (AList.mem_insert s.metrics).mp hother
    · exact hkey
    · exact h.keys other hother
  · rw [hmetrics]
    exact fun hlines other hother => (AList.mem_insert s.metrics).mpr (.inr (h.full hlines other hother))

/-- The collector moves between two lines. -/
theorem State.Collected.between {stress : Bool} {lines : List String} {s : State}
    (h : s.Collected stress lines) (next : State) (hmetrics : next.metrics = s.metrics)
    (hiteration : next.iteration = s.iteration)
    (hfetched : next.collector.fetched = s.collector.fetched)
    (hcurrent : ∀ i, next.collector.current = some i → s.collector.current = some i)
    (hwritten : next.collector.written = 0)
    (hloop : ∀ order index, next.collector ≠ .appending order index) :
    next.Collected stress lines := by
  refine ⟨?_, ?_, ?_, ?_, ?_, fun order index happending => absurd happending (hloop order index)⟩
  · rw [hiteration, hfetched, h.counted]
  · exact fun i hi => h.current i (hcurrent i hi)
  · rw [hwritten]
    simp
  · rw [hmetrics]
    exact h.keys
  · rw [hmetrics]
    exact h.full

/-- What the collector knows of the map once everything is written. -/
theorem State.Collected.values_of_written {stress : Bool} {lines : List String} {s : State}
    (h : s.Collected stress lines) (hwritten : s.collector.written = 3) :
    ∀ entry ∈ metricsOf stress (counter lines.length), s.metrics.lookup entry.1 = some entry.2 := by
  intro entry hentry
  refine h.values entry ?_
  rw [hwritten]
  exact hentry

/-- Once all three metrics are written, the map has every metric key. -/
theorem State.Collected.keys_of_written {stress : Bool} {lines : List String} {s : State}
    (h : s.Collected stress lines) (hwritten : s.collector.written = 3) :
    ∀ key ∈ metricKeys, key ∈ s.metrics := by
  intro key hkey
  have hkeys : (metricsOf stress (counter lines.length)).map Prod.fst = metricKeys := rfl
  rw [← hkeys] at hkey
  obtain ⟨entry, hentry, rfl⟩ := List.mem_map.mp hkey
  have hvalue := h.values_of_written hwritten entry hentry
  exact AList.lookup_isSome.mp (by rw [hvalue]; rfl)

end spdlogger.diagnostics
