import MonitorOperator.Error
import MonitorOperator.Event
import MonitorOperator.Store.Feed

/-!
The store of the cluster. Every write gives its object a version that no write had before, and adds
one change to the feed. A status is written only over the version it was read with; the other writes
replace whatever is there.
-/

namespace MonitorOperator

/-- Monitors and pods, the feed of their changes, the events that were published last, the next
version and the next uid, and counts of what was done, in words that wrap. -/
structure Store where
  monitors : Table Key Monitor := ∅
  pods : Table Key Pod := ∅
  feed : Feed := {}
  events : List Event := []
  /-- the number of events that are kept -/
  retention : Nat := 1000
  nextVersion : UInt64 := 1
  nextUid : UInt64 := 1
  statusWrites : UInt64 := 0
  conflicts : UInt64 := 0
  podsCreated : UInt64 := 0
  eventsEvicted : UInt64 := 0
  unavailable : Bool := false
deriving DecidableEq

namespace Store

def uidText (n : UInt64) : String :=
  let digits := Nat.toDigits 16 n.toNat
  String.ofList (List.replicate (8 - digits.length) '0' ++ digits)

def identify (s : Store) (given : String) : Store × String :=
  if given = "" then ({ s with nextUid := s.nextUid + 1 }, uidText s.nextUid) else (s, given)

def writeMonitor (s : Store) (m : Monitor) (change : Object → Change) : Store × Monitor :=
  let m := { m with metadata := { m.metadata with version := s.nextVersion } }
  ({ s with
      nextVersion := s.nextVersion + 1
      monitors := s.monitors.insert m.key m
      feed := s.feed.push (change (.monitor m)) }, m)

def writePod (s : Store) (p : Pod) (change : Object → Change) : Store × Pod :=
  let p := { p with metadata := { p.metadata with version := s.nextVersion } }
  ({ s with
      nextVersion := s.nextVersion + 1
      pods := s.pods.insert p.key p
      feed := s.feed.push (change (.pod p)) }, p)

/-- Creates a monitor, or replaces everything but the uid and the status of the one that is there. -/
def apply (s : Store) (m : Monitor) : Store × Monitor :=
  match s.monitors.get? m.key with
  | some old =>
    s.writeMonitor
      { m with metadata := { m.metadata with uid := old.metadata.uid }, status := old.status }
      .modified
  | none =>
    let (s, uid) := s.identify m.metadata.uid
    s.writeMonitor { m with metadata := { m.metadata with uid := uid } } .added

/-- Creates a pod, or replaces everything but the uid of the one that is there. -/
def putPod (s : Store) (p : Pod) : Store × Pod :=
  match s.pods.get? p.key with
  | some old => s.writePod { p with metadata := { p.metadata with uid := old.metadata.uid } } .modified
  | none =>
    let (s, uid) := s.identify p.metadata.uid
    s.writePod { p with metadata := { p.metadata with uid := uid } } .added

def seed (s : Store) (m : Manifest) : Store :=
  m.pods.foldl (fun s p => (s.putPod p).1) (m.monitors.foldl (fun s r => (s.apply r).1) s)

def setPodPhase (s : Store) (key : Key) (phase : PodPhase) : Store × Option Pod :=
  match s.pods.get? key with
  | none => (s, none)
  | some p =>
    let (s, p) := s.writePod { p with status := { p.status with phase := phase } } .modified
    (s, some p)

def deletePod (s : Store) (key : Key) : Store × Option Pod :=
  match s.pods.get? key with
  | none => (s, none)
  | some p =>
    ({ s with pods := s.pods.erase key, feed := s.feed.push (.deleted (.pod p)) }, some p)

def children (s : Store) (m : Monitor) : List Pod :=
  s.pods.values.filter (fun p => m.controls p.metadata)

def deleteMonitor (s : Store) (key : Key) : Store × Option Monitor :=
  match s.monitors.get? key with
  | none => (s, none)
  | some m =>
    let children := s.children m
    let feed := children.foldl (fun f p => f.push (.deleted (.pod p)))
      (s.feed.push (.deleted (.monitor m)))
    ({ s with
        monitors := s.monitors.erase key
        pods := s.pods.filter (fun _ p => !m.controls p.metadata)
        feed := feed }, some m)

def setUnavailable (s : Store) (unavailable : Bool) : Store := { s with unavailable := unavailable }

def outage : StoreError := .unavailable "memory store marked unavailable"

def noMonitor (key : Key) : StoreError := .notFound monitorKind key.text

def noPod (key : Key) : StoreError := .notFound podKind key.text

def getMonitor (s : Store) (key : Key) : Except StoreError Monitor :=
  if s.unavailable then .error outage
  else
    match s.monitors.get? key with
    | none => .error (noMonitor key)
    | some m => .ok m

def getPod (s : Store) (key : Key) : Except StoreError Pod :=
  if s.unavailable then .error outage
  else
    match s.pods.get? key with
    | none => .error (noPod key)
    | some p => .ok p

/-- Writes the status of a monitor, if the stored version is the one it was read with. -/
def updateStatus (s : Store) (m : Monitor) : Store × Except StoreError Monitor :=
  if s.unavailable then (s, .error outage)
  else
    match s.monitors.get? m.key with
    | none => (s, .error (noMonitor m.key))
    | some stored =>
      if stored.metadata.version = m.metadata.version then
        let (s, written) := s.writeMonitor { stored with status := m.status } .modified
        ({ s with statusWrites := s.statusWrites + 1 }, .ok written)
      else
        ({ s with conflicts := s.conflicts + 1 },
          .error (.conflict monitorKind m.key.text m.metadata.version stored.metadata.version))

def createPod (s : Store) (p : Pod) : Store × Except StoreError Pod :=
  if s.unavailable then (s, .error outage)
  else if s.pods.contains p.key then (s, .error (.alreadyExists podKind p.key.text))
  else
    let (s, uid) := s.identify ""
    let (s, p) := s.writePod { p with metadata := { p.metadata with uid := uid } } .added
    ({ s with podsCreated := s.podsCreated + 1 }, .ok p)

def list (s : Store) : Except StoreError (List Object) :=
  if s.unavailable then .error outage
  else .ok (s.monitors.values.map .monitor ++ s.pods.values.map .pod)

def capacity (s : Store) : Nat := max s.retention 1

def publish (s : Store) (e : Event) : Store :=
  let surplus := s.events.length + 1 - s.capacity
  { s with
    events := s.events.drop surplus ++ [e]
    eventsEvicted := s.eventsEvicted + UInt64.ofNat surplus }

end Store

end MonitorOperator
