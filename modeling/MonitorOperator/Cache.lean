import MonitorOperator.Cluster.Object

/-!
The local copy of what the feed has shown of the cluster.
-/

namespace MonitorOperator

/-- The last known monitors and pods, and whether a listing has been taken in. -/
structure Cache where
  monitors : Table Key Monitor := ∅
  pods : Table Key Pod := ∅
  synced : Bool := false
deriving DecidableEq

namespace Cache

def put (c : Cache) : Object → Cache
  | .monitor m => { c with monitors := c.monitors.insert m.key m }
  | .pod p => { c with pods := c.pods.insert p.key p }

def dropMonitor (c : Cache) (key : Key) : Cache := { c with monitors := c.monitors.erase key }

def dropPod (c : Cache) (key : Key) : Cache := { c with pods := c.pods.erase key }

def drop (c : Cache) : Object → Cache
  | .monitor m => c.dropMonitor m.key
  | .pod p => c.dropPod p.key

def absorb (c : Cache) : Change → Cache
  | .added o => c.put o
  | .modified o => c.put o
  | .deleted o => c.drop o

def markSynced (c : Cache) : Cache := { c with synced := true }

/-- The changes that lead to a listing: what is missing from it goes, monitors first, then its
monitors come, then its pods. -/
def catchUp (c : Cache) (listing : List Object) : List Change :=
  let monitors := listing.filter Object.isMonitor
  let pods := listing.filter (fun o => !o.isMonitor)
  let gone (present : List Object) (key : Key) : Bool := present.all (fun o => o.key ≠ key)
  ((c.monitors.values.filter (fun m => gone monitors m.key)).map (.deleted ∘ .monitor))
    ++ ((c.pods.values.filter (fun p => gone pods p.key)).map (.deleted ∘ .pod))
    ++ monitors.map .added ++ pods.map .added

end Cache

end MonitorOperator
