import MonitorOperator.Cache
import MonitorOperator.Log
import MonitorOperator.Queue.WorkQueue

/-!
The way from changes to keys. Each change goes into the cache and wakes at most one monitor: the one
that changed, the one that a pod names as its manager, or else the one of the pod's own key.
-/

namespace MonitorOperator

inductive Wake where
  | monitor (key : Key)
  | forget (key : Key)
  /-- the monitor that a pod names as its manager is not in the cache -/
  | orphan (pod owner : Key)
  | nobody
deriving DecidableEq, Repr

namespace Wake

def ofPod (c : Cache) (p : Pod) : Wake :=
  match p.metadata.controller?.filter (·.kind == monitorKind) with
  | some owner =>
    let key : Key := ⟨p.metadata.ns, owner.name⟩
    if c.monitors.contains key then .monitor key else .orphan p.key key
  | none => if c.monitors.contains p.key then .monitor p.key else .nobody

def ofChange (c : Cache) : Change → Wake
  | .added (.monitor m) => .monitor m.key
  | .modified (.monitor m) => .monitor m.key
  | .deleted (.monitor m) => .forget m.key
  | .added (.pod p) => ofPod c p
  | .modified (.pod p) => ofPod c p
  | .deleted (.pod p) => ofPod c p

def run (q : WorkQueue) : Wake → WorkQueue
  | .monitor key => q.add key.text
  | .forget key => q.forget key.text
  | .orphan .. => q
  | .nobody => q

def notices : Wake → List Log.Notice
  | .orphan pod owner => [.orphanIgnored pod.text owner.text]
  | _ => []

end Wake

structure Intake where
  cache : Cache
  queue : WorkQueue
  notices : List Log.Notice := []
deriving DecidableEq

namespace Intake

def handle (i : Intake) (change : Change) : Intake :=
  let cache := i.cache.absorb change
  let wake := Wake.ofChange cache change
  { cache := cache, queue := wake.run i.queue, notices := i.notices ++ wake.notices }

/-- Handles the changes that lead to a listing, and marks the cache synced. -/
def relist (i : Intake) (listing : List Object) : Intake :=
  let i := (i.cache.catchUp listing).foldl handle i
  { i with cache := i.cache.markSynced }

end Intake

end MonitorOperator
