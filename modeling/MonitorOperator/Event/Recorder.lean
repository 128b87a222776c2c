import MonitorOperator.Duration
import MonitorOperator.Event

/-!
The recorder of events. It lets an event pass unless the same text for the same monitor passed
within a window of time, and numbers what it lets pass.
-/

namespace MonitorOperator

/-- What makes two events the same. -/
structure Recorder.Identity where
  ns : String
  name : String
  reason : String
  message : String
deriving DecidableEq, Repr

/-- A point of the calendar in the two forms that events show: milliseconds in hexadecimal, and the
date. -/
structure Recorder.Stamp where
  hex : String
  date : String
deriving DecidableEq, Repr

/-- A recorder with the events it let pass and when, on a clock of nanoseconds that never goes
back. -/
structure Recorder where
  component : String
  window : Duration
  recent : List (Recorder.Identity × Nat)
  sequence : Nat
deriving DecidableEq

namespace Recorder

def defaultWindow : Duration := .ofSeconds 900

def new (component : String) (window : Duration) : Recorder := ⟨component, window, [], 0⟩

structure Report where
  monitor : Monitor
  type : EventType
  reason : String
  message : String
deriving DecidableEq

def Report.identity (r : Report) : Identity :=
  ⟨r.monitor.metadata.ns, r.monitor.metadata.name, r.reason, r.message⟩

def prune (r : Recorder) (now : Nat) : Recorder :=
  { r with recent := r.recent.filter (fun e => now - e.2 < r.window.nanos) }

def holds (r : Recorder) (i : Identity) : Bool := r.recent.any (·.1 == i)

def serial (n : Nat) : String :=
  let digits := Nat.toDigits 16 (n % 0x10000)
  String.ofList (List.replicate (4 - digits.length) '0' ++ digits)

def event (r : Recorder) (stamp : Stamp) (report : Report) : Event :=
  let m := report.monitor.metadata
  { metadata := ⟨m.name ++ "." ++ stamp.hex ++ serial r.sequence, m.ns⟩
    involved := {
      apiVersion := apiVersion
      kind := monitorKind
      name := m.name
      ns := m.ns
      uid := if m.uid = "" then none else some m.uid }
    reason := report.reason
    message := report.message
    type := report.type
    firstTimestamp := stamp.date
    source := ⟨r.component⟩ }

/-- Records a report: the event to publish, if it passes. What passes is remembered before anyone
knows whether publishing it succeeds. -/
def record (r : Recorder) (now : Nat) (stamp : Stamp) (report : Report) : Recorder × Option Event :=
  let r := r.prune now
  if r.holds report.identity then (r, none)
  else
    ({ r with recent := (report.identity, now) :: r.recent, sequence := r.sequence + 1 },
      some (r.event stamp report))

end Recorder

end MonitorOperator
