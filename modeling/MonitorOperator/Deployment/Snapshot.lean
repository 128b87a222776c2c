import MonitorOperator.Cluster.Encode
import MonitorOperator.Deployment

/-!
What a deployment shows of itself, as JSON.
-/

namespace MonitorOperator

def Duration.toJson (d : Duration) : Json :=
  .object [("secs", .ofNat d.seconds), ("nanos", .ofNat d.subsecNanos)]

def WorkQueue.Stats.toJson (s : WorkQueue.Stats) : Json :=
  .object [("queued", .ofNat s.queued), ("processing", .ofNat s.processing),
    ("deferred", .ofNat s.deferred), ("waiting", .ofNat s.waiting)]

def Child.Template.toJson (t : Child.Template) : Json :=
  .object [("image", .string t.image), ("container_name", .string t.containerName),
    ("host_log_path", .string t.hostLogPath), ("service_account", .string t.serviceAccount)]

def Pass.Delays.toJson (d : Pass.Delays) : Json :=
  .object [("failed_requeue", d.failed.toJson), ("resync", d.resync.toJson),
    ("unrecognized_requeue", d.unrecognized.toJson)]

def Pass.Action.toJson : Pass.Action → Json
  | .requeue d => .object [("requeue_ms", .ofNat d.millis)]
  | .awaitChange => .string "AwaitChange"

namespace Object

def phaseText : Object → String
  | .monitor m => m.status.phase.text
  | .pod p => p.status.phase.text

def reason? : Object → Option String
  | .monitor m => some m.status.reason
  | .pod _ => none

def row (o : Object) : Json :=
  .array ([.string o.kind, .string o.key.text, .string o.metadata.uid,
    .ofNat o.metadata.version.toNat, .string o.phaseText] ++ o.reason?.toList.map .string)

end Object

namespace Change

def kind : Change → String
  | .added _ => "Added"
  | .modified _ => "Modified"
  | .deleted _ => "Deleted"

def row (c : Change) : Json :=
  .array [.string c.kind, .string c.object.kind, .string c.object.key.text,
    .ofNat c.object.metadata.version.toNat, .string c.object.phaseText]

end Change

def Store.counts (s : Store) : Json :=
  .object [("status_writes", .ofNat s.statusWrites.toNat), ("conflicts", .ofNat s.conflicts.toNat),
    ("pods_created", .ofNat s.podsCreated.toNat), ("events_recorded", .ofNat s.events.length),
    ("events_evicted", .ofNat s.eventsEvicted.toNat)]

def Store.rows (s : Store) : List Json :=
  match s.list with
  | .ok objects => objects.map Object.row
  | .error _ => []

def Key.texts (keys : List Key) : List String :=
  (keys.map Key.text).mergeSort (fun a b => decide (a ≤ b))

def Cache.toJson (c : Cache) : Json :=
  .object [("monitors", .array ((Key.texts c.monitors.keys).map .string)),
    ("pods", .array ((Key.texts c.pods.keys).map .string)), ("synced", .bool c.synced)]

end MonitorOperator
