import MonitorOperator.Cluster.Monitor
import MonitorOperator.Cluster.Encode
import MonitorOperator.Json.Decode

/-!
Events: what the operator reports about a monitor to whoever looks after it.
-/

namespace MonitorOperator

inductive EventType where
  | normal
  | warning
deriving DecidableEq, Repr, Inhabited

namespace EventType

def named : List (String × EventType) := [("Normal", .normal), ("Warning", .warning)]

def text : EventType → String
  | .normal => "Normal"
  | .warning => "Warning"

end EventType

inductive EventReason where
  | phaseChanged
  | monitoredPodMissing
  | childNotOwned
  | childCreated
  | monitorCompleted
deriving DecidableEq, Repr

namespace EventReason

def all : List EventReason :=
  [.phaseChanged, .monitoredPodMissing, .childNotOwned, .childCreated, .monitorCompleted]

def text : EventReason → String
  | .phaseChanged => "PhaseChanged"
  | .monitoredPodMissing => "MonitoredPodMissing"
  | .childNotOwned => "ChildNameConflict"
  | .childCreated => "ChildPodCreated"
  | .monitorCompleted => "MonitorCompleted"

end EventReason

structure EventMetadata where
  name : String
  ns : String
deriving DecidableEq, Repr

structure ObjectReference where
  apiVersion : String
  kind : String
  name : String
  ns : String
  uid : Option String
deriving DecidableEq, Repr

structure EventSource where
  component : String
deriving DecidableEq, Repr

structure Event where
  metadata : EventMetadata
  involved : ObjectReference
  reason : String
  message : String
  type : EventType
  firstTimestamp : String
  source : EventSource
deriving DecidableEq, Repr

namespace Event

def toJson (e : Event) : Json :=
  .object [
    ("metadata", .object [("name", .string e.metadata.name), ("namespace", .string e.metadata.ns)]),
    ("involvedObject", .object [("apiVersion", .string e.involved.apiVersion),
      ("kind", .string e.involved.kind), ("name", .string e.involved.name),
      ("namespace", .string e.involved.ns), ("uid", Json.ofOption .string e.involved.uid)]),
    ("reason", .string e.reason),
    ("message", .string e.message),
    ("type", .string e.type.text),
    ("firstTimestamp", .string e.firstTimestamp),
    ("source", .object [("component", .string e.source.component)])]

end Event

open Json

def EventType.read : Reader EventType := readVariant EventType.named

structure EventMetadata.Draft where
  name : Option String := none
  ns : Option String := none

def EventMetadata.record : Record EventMetadata.Draft EventMetadata where
  type := "EventMetadata"
  start := {}
  fields := [
    field "name" (·.name) (fun d b => { d with name := some b }) readText false,
    field "namespace" (·.ns) (fun d b => { d with ns := some b }) readText false]
  finish d := do return ⟨← demand "name" d.name, ← demand "namespace" d.ns⟩

structure ObjectReference.Draft where
  apiVersion : Option String := none
  kind : Option String := none
  name : Option String := none
  ns : Option String := none
  uid : Option (Option String) := none

def ObjectReference.record : Record ObjectReference.Draft ObjectReference where
  type := "ObjectReference"
  start := {}
  fields := [
    field "apiVersion" (·.apiVersion) (fun d b => { d with apiVersion := some b }) readText false,
    field "kind" (·.kind) (fun d b => { d with kind := some b }) readText false,
    field "name" (·.name) (fun d b => { d with name := some b }) readText false,
    field "namespace" (·.ns) (fun d b => { d with ns := some b }) readText false,
    field "uid" (·.uid) (fun d b => { d with uid := some b }) (readOption readText) false]
  finish d := do
    return {
      apiVersion := ← demand "apiVersion" d.apiVersion
      kind := ← demand "kind" d.kind
      name := ← demand "name" d.name
      ns := ← demand "namespace" d.ns
      uid := d.uid.getD none }

structure EventSource.Draft where
  component : Option String := none

def EventSource.record : Record EventSource.Draft EventSource where
  type := "EventSource"
  start := {}
  fields := [
    field "component" (·.component) (fun d b => { d with component := some b }) readText false]
  finish d := do return ⟨← demand "component" d.component⟩

structure Event.Draft where
  metadata : Option EventMetadata := none
  involved : Option ObjectReference := none
  reason : Option String := none
  message : Option String := none
  type : Option EventType := none
  firstTimestamp : Option String := none
  source : Option EventSource := none

def Event.record : Record Event.Draft Event where
  type := "KubernetesEvent"
  start := {}
  fields := [
    field "metadata" (·.metadata) (fun d b => { d with metadata := some b })
      EventMetadata.record.read false,
    field "involvedObject" (·.involved) (fun d b => { d with involved := some b })
      ObjectReference.record.read false,
    field "reason" (·.reason) (fun d b => { d with reason := some b }) readText false,
    field "message" (·.message) (fun d b => { d with message := some b }) readText false,
    field "type" (·.type) (fun d b => { d with type := some b }) EventType.read false,
    field "firstTimestamp" (·.firstTimestamp) (fun d b => { d with firstTimestamp := some b })
      readText false,
    field "source" (·.source) (fun d b => { d with source := some b }) EventSource.record.read false]
  finish d := do
    return {
      metadata := ← demand "metadata" d.metadata
      involved := ← demand "involvedObject" d.involved
      reason := ← demand "reason" d.reason
      message := ← demand "message" d.message
      type := ← demand "type" d.type
      firstTimestamp := ← demand "firstTimestamp" d.firstTimestamp
      source := ← demand "source" d.source }

end MonitorOperator
