import MonitorOperator.Event.Recorder
import MonitorOperator.Log
import MonitorOperator.Metrics
import MonitorOperator.Pass

/-!
What becomes of the reports of a pass: counts, entries of the log and events.
-/

namespace MonitorOperator.Pass.Report

def count (m : Metrics) : Report → Metrics
  | .childCreated .. => m.childCreated
  | .statusWritten before written _ =>
    m.transition before.phase.label written.status.phase.label
  | .childNameTaken .. => m
  | .phaseUnknown .. => m

def notice : Report → Log.Notice
  | .childCreated m pod => .childCreated m.key.text pod.key.text m.spec.effectiveInterval
  | .statusWritten before written _ =>
    .phaseChanged written.key.text before.phase.label written.status.phase.label
      written.status.reason
  | .childNameTaken key cause => .childNameTaken key.text cause.message
  | .phaseUnknown key phase => .phaseUnknown key.text phase

def transitionEvent (before : MonitorStatus) (written : Monitor) (failure : EventReason) :
    Recorder.Report :=
  match written.status.phase with
  | .failed => ⟨written, .warning, failure.text, written.status.reason⟩
  | .completed => ⟨written, .normal, EventReason.monitorCompleted.text, "Monitor child finished"⟩
  | phase =>
    ⟨written, .normal, EventReason.phaseChanged.text,
      "Phase changed from " ++ before.phase.label ++ " to " ++ phase.label⟩

def event? : Report → Option Recorder.Report
  | .childCreated m pod =>
    some ⟨m, .normal, EventReason.childCreated.text, "Created monitor pod " ++ pod.metadata.name⟩
  | .statusWritten before written failure => some (transitionEvent before written failure)
  | .childNameTaken .. => none
  | .phaseUnknown .. => none

end MonitorOperator.Pass.Report
