import MonitorOperator.Cluster.Object
import MonitorOperator.Json.Writer

/-!
The JSON form of cluster objects. Members stand in a fixed order; some are left out while they are
empty.
-/

namespace MonitorOperator

namespace Json

def memberUnless (empty : Bool) (name : String) (value : Json) : List (String × Json) :=
  if empty then [] else [(name, value)]

end Json

def Key.toJson (k : Key) : Json :=
  .object [("namespace", .string k.ns), ("name", .string k.name)]

def Owner.toJson (o : Owner) : Json :=
  .object [("apiVersion", .string o.apiVersion), ("kind", .string o.kind), ("name", .string o.name),
    ("uid", .string o.uid), ("controller", .bool o.controller),
    ("blockOwnerDeletion", .bool o.blockOwnerDeletion)]

def labelsJson (labels : Table String String) : Json :=
  .object (labels.entries.map (fun e => (e.1, .string e.2)))

def Metadata.toJson (m : Metadata) : Json :=
  .object ([("namespace", .string m.ns), ("name", .string m.name), ("uid", .string m.uid),
      ("resourceVersion", .ofNat m.version.toNat)]
    ++ Json.memberUnless m.labels.isEmpty "labels" (labelsJson m.labels)
    ++ Json.memberUnless m.owners.isEmpty "ownerReferences" (.array (m.owners.map Owner.toJson)))

def MonitorSpec.toJson (s : MonitorSpec) : Json :=
  .object [("sampleIntervalSeconds", .ofInt s.interval.toInt),
    ("logDirectory", .string s.logDirectory)]

def Phase.toJson (p : Phase) : Json := .string p.text

def MonitorStatus.toJson (s : MonitorStatus) : Json :=
  .object ([("phase", s.phase.toJson)] ++ Json.memberUnless (s.reason == "") "reason" (.string s.reason))

def Monitor.members (m : Monitor) : List (String × Json) :=
  [("metadata", m.metadata.toJson), ("spec", m.spec.toJson), ("status", m.status.toJson)]

def Monitor.toJson (m : Monitor) : Json := .object m.members

def PodPhase.toJson (p : PodPhase) : Json := .string p.text

def RestartPolicy.toJson (p : RestartPolicy) : Json := .string p.text

def Variable.toJson (v : Variable) : Json :=
  .object [("name", .string v.name), ("value", .string v.value)]

def VolumeMount.toJson (v : VolumeMount) : Json :=
  .object [("name", .string v.name), ("mountPath", .string v.path)]

def HostPath.toJson (h : HostPath) : Json := .object [("path", .string h.path)]

def Volume.toJson (v : Volume) : Json :=
  .object [("name", .string v.name), ("hostPath", v.hostPath.toJson)]

def Container.toJson (c : Container) : Json :=
  .object ([("name", .string c.name), ("image", .string c.image)]
    ++ Json.memberUnless c.env.isEmpty "env" (.array (c.env.map Variable.toJson))
    ++ Json.memberUnless c.mounts.isEmpty "volumeMounts" (.array (c.mounts.map VolumeMount.toJson)))

def PodSpec.toJson (s : PodSpec) : Json :=
  .object ([("containers", .array (s.containers.map Container.toJson))]
    ++ Json.memberUnless s.volumes.isEmpty "volumes" (.array (s.volumes.map Volume.toJson))
    ++ [("restartPolicy", s.restartPolicy.toJson)]
    ++ Json.memberUnless (s.serviceAccount == "") "serviceAccountName" (.string s.serviceAccount))

def PodStatus.toJson (s : PodStatus) : Json :=
  .object ([("phase", s.phase.toJson)]
    ++ Json.memberUnless (s.reason == "") "reason" (.string s.reason)
    ++ Json.memberUnless (s.message == "") "message" (.string s.message))

def Pod.members (p : Pod) : List (String × Json) :=
  [("metadata", p.metadata.toJson), ("spec", p.spec.toJson), ("status", p.status.toJson)]

def Pod.toJson (p : Pod) : Json := .object p.members

def Object.toJson : Object → Json
  | .monitor m => .object (("kind", .string monitorKind) :: m.members)
  | .pod p => .object (("kind", .string podKind) :: p.members)

def Manifest.toJson (m : Manifest) : Json :=
  .object [("monitors", .array (m.monitors.map Monitor.toJson)),
    ("pods", .array (m.pods.map Pod.toJson))]

end MonitorOperator
