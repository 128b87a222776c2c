import MonitorOperator.Duration
import MonitorOperator.Error
import MonitorOperator.Cluster.Key
import MonitorOperator.Json.Basic

/-!
The records of the log. A notice is what happened; its entry is the level, the message and the
fields under which the log shows it.
-/

namespace MonitorOperator

namespace Log

inductive Level where
  | info
  | warn
  | error
deriving DecidableEq, Repr

def Level.text : Level → String
  | .info => "INFO"
  | .warn => "WARN"
  | .error => "ERROR"

inductive Value where
  | text (s : String)
  | number (i : Int)
deriving DecidableEq, Repr

structure Entry where
  level : Level
  message : String
  fields : List (String × Value)
deriving DecidableEq, Repr

def Value.toJson : Value → Json
  | .text s => .string s
  | .number i => .ofInt i

def Entry.toJson (e : Entry) : Json :=
  .object [("level", .string e.level.text), ("message", .string e.message),
    ("fields", .object (e.fields.map (fun f => (f.1, f.2.toJson))))]

inductive Notice where
  | started (version : String) (workers : Nat)
  | stopping (reason : String)
  /-- a monitor changed its phase; the reason is empty unless it failed -/
  | phaseChanged (resource source target reason : String)
  | childCreated (resource pod : String) (interval : Int32)
  | syncFailed (key error : String) (retryIn : Duration) (attempts : Nat)
  | keyDropped (key error : String)
  | childNameTaken (resource error : String)
  | phaseUnknown (resource phase : String)
  | publishFailed (resource reason error : String)
  | orphanIgnored (pod owner : String)
  | listFailed (error : String)
  | feedLagged (missed : Nat)
  | shutdownBeforeSync
  /-- what the runtime says of the failure is left out -/
  | workerFailed
deriving DecidableEq

def text (name value : String) : String × Value := (name, .text value)

def Notice.entry (component : String) : Notice → Entry
  | .started version workers =>
    ⟨.info, "PodMonitor operator started",
      [text "event" "operator_started", text "component" component, text "version" version,
       ("workers", .number workers)]⟩
  | .stopping reason =>
    ⟨.info, "PodMonitor operator shutting down",
      [text "event" "operator_shutdown", text "component" component, text "reason" reason]⟩
  | .phaseChanged resource source target reason =>
    let fields := [text "event" "phase_transition", text "component" component,
      text "resource" resource, text "from" source, text "to" target]
    if reason = "" then ⟨.info, "PodMonitor phase changed", fields⟩
    else ⟨.warn, "PodMonitor phase changed", fields ++ [text "reason" reason]⟩
  | .childCreated resource pod interval =>
    ⟨.info, "Created monitor child pod",
      [text "event" "child_pod_created", text "component" component, text "resource" resource,
       text "pod" pod, ("sample_interval_secs", .number interval.toInt)]⟩
  | .syncFailed key error retryIn attempts =>
    ⟨.warn, "Sync failed, requeued with backoff",
      [text "event" "sync_failed", text "component" component, text "key" key, text "error" error,
       ("retry_in_ms", .number (retryIn.millis % UInt64.size : Nat)), ("attempts", .number attempts)]⟩
  | .keyDropped key error =>
    ⟨.error, "Dropping key that cannot be reconciled",
      [text "event" "key_dropped", text "component" component, text "key" key, text "error" error]⟩
  | .childNameTaken resource error =>
    ⟨.warn, "Monitor child name is taken", [text "resource" resource, text "error" error]⟩
  | .phaseUnknown resource phase =>
    ⟨.warn, "Unrecognized PodMonitor phase, leaving untouched",
      [text "resource" resource, text "phase" phase]⟩
  | .publishFailed resource reason error =>
    ⟨.warn, "Failed to publish event",
      [text "resource" resource, text "reason" reason, text "error" error]⟩
  | .orphanIgnored pod owner =>
    ⟨.warn, "Ignoring orphaned pod: owning PodMonitor not found",
      [text "pod" pod, text "owner" owner]⟩
  | .listFailed error =>
    ⟨.warn, "Failed to list watch source, retrying", [text "error" error]⟩
  | .feedLagged missed =>
    ⟨.warn, "Watch feed lagged, relisting", [("missed", .number missed)]⟩
  | .shutdownBeforeSync => ⟨.warn, "Shutdown before watch cache synced", []⟩
  | .workerFailed => ⟨.warn, "Worker task failed", []⟩

end Log

end MonitorOperator
