import MonitorOperator.Cluster.Monitor
import MonitorOperator.Cluster.Pod

/-!
What a cluster holds and how it changes.
-/

namespace MonitorOperator

inductive Object where
  | monitor (m : Monitor)
  | pod (p : Pod)
deriving DecidableEq

namespace Object

def key : Object → Key
  | .monitor m => m.key
  | .pod p => p.key

def isMonitor : Object → Bool
  | .monitor _ => true
  | .pod _ => false

def kind : Object → String
  | .monitor _ => monitorKind
  | .pod _ => podKind

def metadata : Object → Metadata
  | .monitor m => m.metadata
  | .pod p => p.metadata

end Object

/-- A change of the cluster, with the object as it is after a write or was before a removal. -/
inductive Change where
  | added (object : Object)
  | modified (object : Object)
  | deleted (object : Object)
deriving DecidableEq

def Change.object : Change → Object
  | .added o => o
  | .modified o => o
  | .deleted o => o

structure Manifest where
  monitors : List Monitor := []
  pods : List Pod := []
deriving DecidableEq

end MonitorOperator
