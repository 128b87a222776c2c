import MonitorOperator.Json.Decode
import MonitorOperator.Table

/-!
The health of the operator: the last report of each component and when it was made, and the answers
to the two probes. Being ready takes a synced cache as well.
-/

namespace MonitorOperator.Health

inductive Status where
  | healthy
  /-- works, but repeats what failed -/
  | degraded
  | unhealthy
deriving DecidableEq, Repr, Inhabited

namespace Status

def named : List (String × Status) :=
  [("healthy", .healthy), ("degraded", .degraded), ("unhealthy", .unhealthy)]

def text : Status → String
  | .healthy => "healthy"
  | .degraded => "degraded"
  | .unhealthy => "unhealthy"

def isOperational : Status → Bool
  | .unhealthy => false
  | _ => true

def worse : Status → Status → Status
  | .unhealthy, _ => .unhealthy
  | _, .unhealthy => .unhealthy
  | .degraded, _ => .degraded
  | _, .degraded => .degraded
  | .healthy, .healthy => .healthy

def worst (states : List Status) : Status := states.foldl worse .healthy

end Status

structure Report where
  status : Status
  message : Option String
deriving DecidableEq, Repr

structure DatedReport extends Report where
  checkedAt : Int64
deriving DecidableEq

structure Readiness where
  ready : Bool
  reason : Option String
deriving DecidableEq, Repr

/-- The last report of every component, whether the cache has synced, and the clock that dates the
reports, in seconds. -/
structure Board where
  reports : Table String DatedReport := ∅
  synced : Bool := false
  clock : Int64 := 0
deriving DecidableEq

def queueComponent : String := "queue"

def workersComponent : String := "workers"

def cacheComponent : String := "watch_cache"

def storeComponent : String := "store"

def components : List String := [queueComponent, workersComponent, cacheComponent, storeComponent]

namespace Board

def report (b : Board) (name : String) (r : Report) : Board :=
  { b with reports := b.reports.insert name { r with checkedAt := b.clock } }

def setHealthy (b : Board) (name : String) : Board := b.report name ⟨.healthy, none⟩

def setDegraded (b : Board) (name message : String) : Board :=
  b.report name ⟨.degraded, some message⟩

def setUnhealthy (b : Board) (name message : String) : Board :=
  b.report name ⟨.unhealthy, some message⟩

def register (b : Board) (name : String) : Board := b.setHealthy name

def setSynced (b : Board) (synced : Bool) : Board := { b with synced := synced }

def tick (b : Board) (time : Int64) : Board := { b with clock := time }

def registerAll (b : Board) : Board := components.foldl register b

def forOperator (time : Int64) : Board := registerAll { clock := time }

def status? (b : Board) (name : String) : Option Status := (b.reports.get? name).map (·.status)

def overall (b : Board) : Status := Status.worst (b.reports.values.map (·.status))

def failing (b : Board) : List String :=
  (b.reports.entries.filter (fun e => !e.2.status.isOperational)).map (·.1)

def failingText : String := "Unhealthy components: "

def readiness (b : Board) : Readiness :=
  if !b.synced then ⟨false, some "Watch cache not yet synced"⟩
  else if b.overall.isOperational then ⟨true, none⟩
  else ⟨false, some (failingText ++ ", ".intercalate b.failing)⟩

end Board

open Json

def optional (name : String) (value : Option String) : List (String × Json) :=
  match value with
  | none => []
  | some s => [(name, .string s)]

def Status.toJson (s : Status) : Json := .string s.text

def Status.read : Reader Status := readVariant Status.named

def DatedReport.toJson (r : DatedReport) : Json :=
  .object ([("status", r.status.toJson)] ++ optional "message" r.message
    ++ [("last_check_timestamp", .ofInt r.checkedAt.toInt)])

structure DatedReport.Draft where
  status : Option Status := none
  message : Option (Option String) := none
  checkedAt : Option Int64 := none

def DatedReport.record : Record DatedReport.Draft DatedReport where
  type := "ComponentHealth"
  start := {}
  fields := [
    field "status" (·.status) (fun d b => { d with status := some b }) Status.read false,
    field "message" (·.message) (fun d b => { d with message := some b }) (readOption readText)
      false,
    field "last_check_timestamp" (·.checkedAt) (fun d b => { d with checkedAt := some b })
      readInt64 false]
  finish d := do
    return {
      status := ← demand "status" d.status
      message := d.message.getD none
      checkedAt := ← demand "last_check_timestamp" d.checkedAt }

structure Summary where
  status : Status
  components : Table String DatedReport
deriving DecidableEq

def Summary.toJson (s : Summary) : Json :=
  .object [("status", s.status.toJson),
    ("components", .object (s.components.entries.map (fun e => (e.1, e.2.toJson))))]

structure Summary.Draft where
  status : Option Status := none
  components : Option (Table String DatedReport) := none

def Summary.record : Record Summary.Draft Summary where
  type := "HealthResponse"
  start := {}
  fields := [
    field "status" (·.status) (fun d b => { d with status := some b }) Status.read false,
    field "components" (·.components) (fun d b => { d with components := some b })
      (readTable DatedReport.record.read) false]
  finish d := do
    return ⟨← demand "status" d.status, ← demand "components" d.components⟩

def Board.toJson (b : Board) : Json :=
  .object [("status", b.overall.toJson),
    ("components", .object (b.reports.entries.map (fun e => (e.1, e.2.toJson))))]

def Readiness.toJson (r : Readiness) : Json :=
  .object ([("ready", .bool r.ready)] ++ optional "reason" r.reason)

structure Readiness.Draft where
  ready : Option Bool := none
  reason : Option (Option String) := none

def Readiness.record : Record Readiness.Draft Readiness where
  type := "ReadinessResponse"
  start := {}
  fields := [
    field "ready" (·.ready) (fun d b => { d with ready := some b }) readBool false,
    field "reason" (·.reason) (fun d b => { d with reason := some b }) (readOption readText) false]
  finish d := do return ⟨← demand "ready" d.ready, d.reason.getD none⟩

end MonitorOperator.Health
