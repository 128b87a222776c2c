import MonitorOperator.Cluster.Key
import MonitorOperator.Table

/-!
Metadata that every stored object carries, and the references by which one object owns another.
-/

namespace MonitorOperator

def monitorKind : String := "PodMonitor"

def podKind : String := "Pod"

def apiVersion : String := "lsalab.nthu/v1"

structure Owner where
  apiVersion : String
  kind : String
  name : String
  uid : String
  controller : Bool := false
  blockOwnerDeletion : Bool := false
deriving DecidableEq

structure Metadata where
  ns : String
  name : String
  uid : String := ""
  version : UInt64 := 0
  labels : Table String String := ∅
  owners : List Owner := []
deriving DecidableEq

namespace Metadata

def key (m : Metadata) : Key := ⟨m.ns, m.name⟩

def controller? (m : Metadata) : Option Owner := m.owners.find? (·.controller)

end Metadata

end MonitorOperator
