import MonitorOperator.Cluster.Object
import MonitorOperator.Json.Decode

/-!
Reading cluster objects from JSON. Each record has a draft that its fields fill; a field that was
not given has its default or is missing.
-/

namespace MonitorOperator

open Json

structure Key.Draft where
  ns : Option String := none
  name : Option String := none

def Key.record : Record Key.Draft Key where
  type := "ObjectKey"
  start := {}
  fields := [
    field "namespace" (·.ns) (fun d b => { d with ns := some b }) readText false,
    field "name" (·.name) (fun d b => { d with name := some b }) readText false]
  finish d := do return ⟨← demand "namespace" d.ns, ← demand "name" d.name⟩

structure Owner.Draft where
  apiVersion : Option String := none
  kind : Option String := none
  name : Option String := none
  uid : Option String := none
  controller : Option Bool := none
  blockOwnerDeletion : Option Bool := none

def Owner.record : Record Owner.Draft Owner where
  type := "OwnerReference"
  start := {}
  fields := [
    field "apiVersion" (·.apiVersion) (fun d b => { d with apiVersion := some b }) readText false,
    field "kind" (·.kind) (fun d b => { d with kind := some b }) readText false,
    field "name" (·.name) (fun d b => { d with name := some b }) readText false,
    field "uid" (·.uid) (fun d b => { d with uid := some b }) readText false,
    field "controller" (·.controller) (fun d b => { d with controller := some b }) readBool true,
    field "blockOwnerDeletion" (·.blockOwnerDeletion)
      (fun d b => { d with blockOwnerDeletion := some b }) readBool true]
  finish d := do
    return {
      apiVersion := ← demand "apiVersion" d.apiVersion
      kind := ← demand "kind" d.kind
      name := ← demand "name" d.name
      uid := ← demand "uid" d.uid
      controller := d.controller.getD false
      blockOwnerDeletion := d.blockOwnerDeletion.getD false }

structure Metadata.Draft where
  ns : Option String := none
  name : Option String := none
  uid : Option String := none
  version : Option UInt64 := none
  labels : Option (Table String String) := none
  owners : Option (List Owner) := none

def Metadata.record : Record Metadata.Draft Metadata where
  type := "ObjectMeta"
  start := {}
  fields := [
    field "namespace" (·.ns) (fun d b => { d with ns := some b }) readText false,
    field "name" (·.name) (fun d b => { d with name := some b }) readText false,
    field "uid" (·.uid) (fun d b => { d with uid := some b }) readText true,
    field "resourceVersion" (·.version) (fun d b => { d with version := some b }) readUInt64 true,
    field "labels" (·.labels) (fun d b => { d with labels := some b }) (readTable readText) true,
    field "ownerReferences" (·.owners) (fun d b => { d with owners := some b })
      (readList Owner.record.read) true]
  finish d := do
    return {
      ns := ← demand "namespace" d.ns
      name := ← demand "name" d.name
      uid := d.uid.getD ""
      version := d.version.getD 0
      labels := d.labels.getD ∅
      owners := d.owners.getD [] }

structure MonitorSpec.Draft where
  interval : Option Int32 := none
  logDirectory : Option String := none

def MonitorSpec.record : Record MonitorSpec.Draft MonitorSpec where
  type := "MonitorSpec"
  start := {}
  fields := [
    field "sampleIntervalSeconds" (·.interval) (fun d b => { d with interval := some b })
      readInt32 true,
    field "logDirectory" (·.logDirectory) (fun d b => { d with logDirectory := some b })
      readText true]
  finish d := .ok {
    interval := d.interval.getD defaultInterval
    logDirectory := d.logDirectory.getD "" }

def Phase.read : Reader Phase := fun source o => (readText source o).map Phase.ofText

structure MonitorStatus.Draft where
  phase : Option Phase := none
  reason : Option String := none

def MonitorStatus.record : Record MonitorStatus.Draft MonitorStatus where
  type := "MonitorStatus"
  start := {}
  fields := [
    field "phase" (·.phase) (fun d b => { d with phase := some b }) Phase.read true,
    field "reason" (·.reason) (fun d b => { d with reason := some b }) readText true]
  finish d := .ok { phase := d.phase.getD .unset, reason := d.reason.getD "" }

structure Monitor.Draft where
  metadata : Option Metadata := none
  spec : Option MonitorSpec := none
  status : Option MonitorStatus := none

def Monitor.record : Record Monitor.Draft Monitor where
  type := "MonitorResource"
  start := {}
  fields := [
    field "metadata" (·.metadata) (fun d b => { d with metadata := some b })
      Metadata.record.read false,
    field "spec" (·.spec) (fun d b => { d with spec := some b }) MonitorSpec.record.read true,
    field "status" (·.status) (fun d b => { d with status := some b })
      MonitorStatus.record.read true]
  finish d := do
    return {
      metadata := ← demand "metadata" d.metadata
      spec := d.spec.getD {}
      status := d.status.getD {} }

def PodPhase.read : Reader PodPhase := readVariant PodPhase.named

def RestartPolicy.read : Reader RestartPolicy := readVariant RestartPolicy.named

structure Variable.Draft where
  name : Option String := none
  value : Option String := none

def Variable.record : Record Variable.Draft Variable where
  type := "EnvVar"
  start := {}
  fields := [
    field "name" (·.name) (fun d b => { d with name := some b }) readText false,
    field "value" (·.value) (fun d b => { d with value := some b }) readText false]
  finish d := do return ⟨← demand "name" d.name, ← demand "value" d.value⟩

structure VolumeMount.Draft where
  name : Option String := none
  path : Option String := none

def VolumeMount.record : Record VolumeMount.Draft VolumeMount where
  type := "VolumeMount"
  start := {}
  fields := [
    field "name" (·.name) (fun d b => { d with name := some b }) readText false,
    field "mountPath" (·.path) (fun d b => { d with path := some b }) readText false]
  finish d := do return ⟨← demand "name" d.name, ← demand "mountPath" d.path⟩

structure HostPath.Draft where
  path : Option String := none

def HostPath.record : Record HostPath.Draft HostPath where
  type := "HostPathVolumeSource"
  start := {}
  fields := [field "path" (·.path) (fun d b => { d with path := some b }) readText false]
  finish d := do return ⟨← demand "path" d.path⟩

structure Volume.Draft where
  name : Option String := none
  hostPath : Option HostPath := none

def Volume.record : Record Volume.Draft Volume where
  type := "Volume"
  start := {}
  fields := [
    field "name" (·.name) (fun d b => { d with name := some b }) readText false,
    field "hostPath" (·.hostPath) (fun d b => { d with hostPath := some b })
      HostPath.record.read false]
  finish d := do return ⟨← demand "name" d.name, ← demand "hostPath" d.hostPath⟩

structure Container.Draft where
  name : Option String := none
  image : Option String := none
  env : Option (List Variable) := none
  mounts : Option (List VolumeMount) := none

def Container.record : Record Container.Draft Container where
  type := "Container"
  start := {}
  fields := [
    field "name" (·.name) (fun d b => { d with name := some b }) readText false,
    field "image" (·.image) (fun d b => { d with image := some b }) readText false,
    field "env" (·.env) (fun d b => { d with env := some b }) (readList Variable.record.read) true,
    field "volumeMounts" (·.mounts) (fun d b => { d with mounts := some b })
      (readList VolumeMount.record.read) true]
  finish d := do
    return {
      name := ← demand "name" d.name
      image := ← demand "image" d.image
      env := d.env.getD []
      mounts := d.mounts.getD [] }

structure PodSpec.Draft where
  containers : Option (List Container) := none
  volumes : Option (List Volume) := none
  restartPolicy : Option RestartPolicy := none
  serviceAccount : Option String := none

def PodSpec.record : Record PodSpec.Draft PodSpec where
  type := "PodSpec"
  start := {}
  fields := [
    field "containers" (·.containers) (fun d b => { d with containers := some b })
      (readList Container.record.read) true,
    field "volumes" (·.volumes) (fun d b => { d with volumes := some b })
      (readList Volume.record.read) true,
    field "restartPolicy" (·.restartPolicy) (fun d b => { d with restartPolicy := some b })
      RestartPolicy.read true,
    field "serviceAccountName" (·.serviceAccount) (fun d b => { d with serviceAccount := some b })
      readText true]
  finish d := .ok {
    containers := d.containers.getD []
    volumes := d.volumes.getD []
    restartPolicy := d.restartPolicy.getD .always
    serviceAccount := d.serviceAccount.getD "" }

structure PodStatus.Draft where
  phase : Option PodPhase := none
  reason : Option String := none
  message : Option String := none

def PodStatus.record : Record PodStatus.Draft PodStatus where
  type := "PodStatus"
  start := {}
  fields := [
    field "phase" (·.phase) (fun d b => { d with phase := some b }) PodPhase.read true,
    field "reason" (·.reason) (fun d b => { d with reason := some b }) readText true,
    field "message" (·.message) (fun d b => { d with message := some b }) readText true]
  finish d := .ok {
    phase := d.phase.getD .pending
    reason := d.reason.getD ""
    message := d.message.getD "" }

structure Pod.Draft where
  metadata : Option Metadata := none
  spec : Option PodSpec := none
  status : Option PodStatus := none

def Pod.record : Record Pod.Draft Pod where
  type := "Pod"
  start := {}
  fields := [
    field "metadata" (·.metadata) (fun d b => { d with metadata := some b })
      Metadata.record.read false,
    field "spec" (·.spec) (fun d b => { d with spec := some b }) PodSpec.record.read true,
    field "status" (·.status) (fun d b => { d with status := some b }) PodStatus.record.read true]
  finish d := do
    return {
      metadata := ← demand "metadata" d.metadata
      spec := d.spec.getD {}
      status := d.status.getD {} }

namespace Object

def tagName : String := "kind"

def kinds : List (String × Bool) := [(monitorKind, true), (podKind, false)]

/-- Sets the kind apart from the other members, which are kept. The containers of a kept member may
nest one level less than those of a whole text. -/
def splitMembers (source : Source) (kept : List (String × Json)) (tag : Option Bool) :
    Members → Except Json.Fault (Bool × List (String × Json))
  | .close =>
    match tag with
    | none => .error (.data (.missingField tagName))
    | some tag => .ok (tag, kept.reverse)
  | .stop cause => .error (.text cause)
  | .dangling cause => .error (.text cause)
  | .member (.broken cause _) _ _ => .error (.text cause)
  | .member (.text name) value rest =>
    if name = tagName then
      if tag.isSome then .error (.data (.duplicateField tagName))
      else do
        let tag ← readTag kinds source value
        splitMembers source kept (some tag) rest
    else
      match value.keep (depthLimit - 1) with
      | .error cause => .error (.text cause)
      | .ok value => splitMembers source ((name, value) :: kept) tag rest

def splitItems (source : Source) : Items → Except Json.Fault (Bool × List Json)
  | .close => .error (.data (.missingField tagName))
  | .stop cause => .error (.text cause)
  | .item value rest => do
    let tag ← readTag kinds source value
    match rest.keep (depthLimit - 1) with
    | .error cause => .error (.text cause)
    | .ok items => return (tag, items)

def ofKept (isMonitor : Bool) (content : Json) : Except Json.Fault Object :=
  if isMonitor then (Monitor.record.read .kept (toOutline content)).map .monitor
  else (Pod.record.read .kept (toOutline content)).map .pod

def read : Reader Object
  | source, .object members => do
    let (tag, members) ← splitMembers source [] none members
    ofKept tag (.object members)
  | source, .array items => do
    let (tag, items) ← splitItems source items
    ofKept tag (.array items)
  | _, o => .error (refuse "internally tagged enum WatchObject" o)

end Object

structure Manifest.Draft where
  monitors : Option (List Monitor) := none
  pods : Option (List Pod) := none

def Manifest.record : Record Manifest.Draft Manifest where
  type := "Manifest"
  start := {}
  fields := [
    field "monitors" (·.monitors) (fun d b => { d with monitors := some b })
      (readList Monitor.record.read) true,
    field "pods" (·.pods) (fun d b => { d with pods := some b }) (readList Pod.record.read) true]
  finish d := .ok { monitors := d.monitors.getD [], pods := d.pods.getD [] }

def Manifest.parse (text : String) : Except Json.Fault Manifest :=
  readTextWith Manifest.record.read text

end MonitorOperator
