import MonitorOperator.Decimal.Shortest
import MonitorOperator.Duration
import MonitorOperator.Table

/-!
The counts that the operator keeps of its work, and the text in which they are collected: families
in the order of their names, each with a line of help, a line with its type and its samples.
-/

namespace MonitorOperator

inductive Outcome where
  | success
  | retry
  | dropped
deriving DecidableEq, Repr

def Outcome.text : Outcome → String
  | .success => "success"
  | .retry => "retry"
  | .dropped => "dropped"

namespace Metrics

/-- A number as it is collected, rounded. -/
def rounded (n : Nat) : Decimal.Magnitude := (Decimal.Magnitude.nearest? n 1).getD .zero

def secondsOf (d : Duration) : Decimal.Magnitude :=
  let part := (Decimal.Magnitude.nearest? d.subsecNanos nanosPerSecond).getD .zero
  ((rounded d.seconds).plus? part).getD .zero

/-- Durations counted below some bounds. A bucket holds its bound in nanoseconds and the number of
durations that are no longer. The total is in seconds, rounded after every addition. -/
structure Histogram where
  buckets : List (Nat × UInt64)
  count : UInt64 := 0
  total : Decimal.Magnitude := .zero
deriving DecidableEq, Repr

namespace Histogram

def ofBounds (bounds : List Nat) : Histogram := { buckets := bounds.map (·, 0) }

def observe (h : Histogram) (d : Duration) : Histogram where
  buckets := h.buckets.map (fun b => if d.nanos ≤ b.1 then (b.1, b.2 + 1) else b)
  count := h.count + 1
  total := (h.total.plus? (secondsOf d)).getD h.total

end Histogram

def passBounds : List Nat :=
  [500000, 1000000, 2500000, 5000000, 10000000, 25000000, 50000000, 100000000, 250000000, 500000000,
   1000000000, 2500000000, 5000000000]

structure Edge where
  source : String
  target : String
deriving DecidableEq, Repr

def Edge.joined (e : Edge) : String := e.source ++ e.target

instance : Ord Edge := ⟨compareLex (compareOn Edge.source) (compareOn Edge.target)⟩

instance : Std.TransOrd Edge :=
  inferInstanceAs (Std.TransCmp (compareLex (compareOn Edge.source) (compareOn Edge.target)))

instance : Std.LawfulEqOrd Edge where
  compare_self {a} :=
    @Std.ReflCmp.compare_self _ (compareLex (compareOn Edge.source) (compareOn Edge.target)) _ a
  eq_of_compare {a b} h := by
    have h : compareLex (compareOn Edge.source) (compareOn Edge.target) a b = .eq := h
    rw [compareLex_eq_eq] at h
    cases a; cases b
    simp only [compareOn, Std.compare_eq_iff_eq] at h
    simp [h.1, h.2]

end Metrics

/-- What the operator has counted, in words of 64 bits that wrap. -/
structure Metrics where
  passTimes : Metrics.Histogram := .ofBounds Metrics.passBounds
  passes : Table String UInt64 := ∅
  transitions : Table Metrics.Edge UInt64 := ∅
  childrenCreated : UInt64 := 0
  retries : UInt64 := 0
  queueDepth : Int64 := 0
  workersBusy : Int64 := 0
deriving DecidableEq

namespace Metrics

def bump {κ : Type} [Ord κ] [Std.TransOrd κ] (counts : Table κ UInt64) (k : κ) :
    Table κ UInt64 :=
  counts.insert k ((counts.get? k).getD 0 + 1)

def observe (m : Metrics) (elapsed : Duration) (outcome : Outcome) : Metrics :=
  { m with
    passTimes := m.passTimes.observe elapsed
    passes := bump m.passes outcome.text }

/-- The edge under which a change is counted. Edges whose names read the same in one are not told
apart: the one that came first stands for them. -/
def counted (m : Metrics) (e : Edge) : Edge :=
  (m.transitions.keys.find? (·.joined = e.joined)).getD e

def transition (m : Metrics) (source target : String) : Metrics :=
  { m with transitions := bump m.transitions (m.counted ⟨source, target⟩) }

def childCreated (m : Metrics) : Metrics := { m with childrenCreated := m.childrenCreated + 1 }

def retried (m : Metrics) : Metrics := { m with retries := m.retries + 1 }

def setDepth (m : Metrics) (depth : Nat) : Metrics := { m with queueDepth := Int64.ofNat depth }

def workerStarted (m : Metrics) : Metrics := { m with workersBusy := m.workersBusy + 1 }

def workerFinished (m : Metrics) : Metrics := { m with workersBusy := m.workersBusy - 1 }

def secondsText (nanos : Nat) : String :=
  String.ofList (Decimal.Digits.strip 9 ⟨nanos, -9⟩).positional

def rounding (n : Nat) : Nat :=
  let (num, den) := (rounded n).fraction
  num / den

def counterReading (value : UInt64) : Int := min (rounding value.toNat) UInt64.size.pred

def gaugeReading (value : Int64) : Int :=
  if value < 0 then -rounding value.toInt.natAbs
  else min (rounding value.toInt.natAbs) Int64.maxValue.toInt

def readings (m : Metrics) : List (String × Int) :=
  let labelled (name : String) (values : List String) : String :=
    name ++ "\x7b" ++ ",".intercalate values ++ "\x7d"
  [("reconcile_duration_seconds_count", counterReading m.passTimes.count),
    ("child_pods_created_total", counterReading m.childrenCreated),
    ("queue_retries_total", counterReading m.retries),
    ("queue_depth", gaugeReading m.queueDepth),
    ("workers_busy", gaugeReading m.workersBusy)]
    ++ m.passes.entries.map (fun e =>
      (labelled "reconciliations_total" [e.1], counterReading e.2))
    ++ m.transitions.entries.map (fun e =>
      (labelled "phase_transitions_total" [e.1.source, e.1.target], counterReading e.2))

def Histogram.readings (h : Histogram) : List (String × Nat) :=
  h.buckets.map (fun b => (secondsText b.1, b.2.toNat))

def digits (n : Nat) : List Char := (rounded n).shortest.positional

def counterText (value : UInt64) : String := String.ofList (digits value.toNat)

def gaugeText (value : Int64) : String :=
  let size := digits value.toInt.natAbs
  String.ofList (if value < 0 then '-' :: size else size)

def labelText (value : String) : String :=
  let escape (c : Char) : List Char :=
    if c = '\\' then ['\\', '\\']
    else if c = '"' then ['\\', '"']
    else if c = '\n' then ['\\', 'n']
    else [c]
  "\"" ++ String.ofList (value.toList.flatMap escape) ++ "\""

def labels (pairs : List (String × String)) : String :=
  "\x7b" ++ ",".intercalate (pairs.map (fun p => p.1 ++ "=" ++ labelText p.2)) ++ "\x7d"

structure Family where
  name : String
  help : String
  type : String
  samples : List (String × String)

def namespaceText : String := "podmonitor_"

def Family.lines (f : Family) : List String :=
  let name := namespaceText ++ f.name
  ["# HELP " ++ name ++ " " ++ f.help, "# TYPE " ++ name ++ " " ++ f.type]
    ++ f.samples.map (fun s => name ++ s.1 ++ " " ++ s.2)

def Histogram.samples (h : Histogram) : List (String × String) :=
  h.buckets.map (fun b => ("_bucket" ++ labels [("le", secondsText b.1)], counterText b.2))
    ++ [("_bucket" ++ labels [("le", "+Inf")], counterText h.count),
      ("_sum", String.ofList h.total.shortest.positional), ("_count", counterText h.count)]

def families (m : Metrics) : List Family :=
  [⟨"child_pods_created_total", "Monitor child pods created", "counter",
      [("", counterText m.childrenCreated)]⟩]
    ++ (if m.transitions.isEmpty then [] else
      [⟨"phase_transitions_total", "PodMonitor phase changes written to the store", "counter",
        m.transitions.entries.map (fun e =>
          (labels [("from", e.1.source), ("to", e.1.target)], counterText e.2))⟩])
    ++ [⟨"queue_depth", "Keys waiting in the work queue", "gauge", [("", gaugeText m.queueDepth)]⟩,
      ⟨"queue_retries_total", "Keys re-added with backoff after a failed sync", "counter",
        [("", counterText m.retries)]⟩,
      ⟨"reconcile_duration_seconds", "Time spent in a single reconciliation pass", "histogram",
        m.passTimes.samples⟩]
    ++ (if m.passes.isEmpty then [] else
      [⟨"reconciliations_total", "Reconciliation passes by outcome", "counter",
        m.passes.entries.map (fun e => (labels [("result", e.1)], counterText e.2))⟩])
    ++ [⟨"workers_busy", "Workers currently reconciling a key", "gauge",
      [("", gaugeText m.workersBusy)]⟩]

def exposition (m : Metrics) : String :=
  String.join ((m.families.flatMap Family.lines).map (· ++ "\n"))

end Metrics

end MonitorOperator
