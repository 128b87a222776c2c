import MonitorOperator.Cluster.Metadata

/-!
Pods: the monitored workload and the children of monitors.
-/

namespace MonitorOperator

inductive PodPhase where
  | pending
  | running
  | succeeded
  | failed
  | unknown
deriving DecidableEq, Repr, Inhabited

namespace PodPhase

def named : List (String × PodPhase) :=
  [("Pending", .pending), ("Running", .running), ("Succeeded", .succeeded), ("Failed", .failed),
   ("Unknown", .unknown)]

def text : PodPhase → String
  | .pending => "Pending"
  | .running => "Running"
  | .succeeded => "Succeeded"
  | .failed => "Failed"
  | .unknown => "Unknown"

def isTerminal : PodPhase → Bool
  | .succeeded => true
  | .failed => true
  | _ => false

end PodPhase

inductive RestartPolicy where
  | always
  | onFailure
  | never
deriving DecidableEq, Repr, Inhabited

namespace RestartPolicy

def named : List (String × RestartPolicy) :=
  [("Always", .always), ("OnFailure", .onFailure), ("Never", .never)]

def text : RestartPolicy → String
  | .always => "Always"
  | .onFailure => "OnFailure"
  | .never => "Never"

end RestartPolicy

structure Variable where
  name : String
  value : String
deriving DecidableEq, Repr

structure VolumeMount where
  name : String
  path : String
deriving DecidableEq, Repr

structure HostPath where
  path : String
deriving DecidableEq, Repr

structure Volume where
  name : String
  hostPath : HostPath
deriving DecidableEq, Repr

structure Container where
  name : String
  image : String
  env : List Variable := []
  mounts : List VolumeMount := []
deriving DecidableEq, Repr

def Container.value? (c : Container) (name : String) : Option String :=
  (c.env.find? (·.name == name)).map (·.value)

structure PodSpec where
  containers : List Container := []
  volumes : List Volume := []
  restartPolicy : RestartPolicy := .always
  serviceAccount : String := ""
deriving DecidableEq

structure PodStatus where
  phase : PodPhase := .pending
  reason : String := ""
  message : String := ""
deriving DecidableEq

structure Pod where
  metadata : Metadata
  spec : PodSpec := {}
  status : PodStatus := {}
deriving DecidableEq

def Pod.key (p : Pod) : Key := p.metadata.key

end MonitorOperator
