import MonitorOperator.Cluster.Monitor
import MonitorOperator.Cluster.Pod

/-!
The child of a monitor: the pod that samples the monitored one. It follows from the monitor and a
fixed template, and tells its process what to do through four environment variables.
-/

namespace MonitorOperator

namespace Child

def namespaceVariable : String := "PODMONITOR_NAMESPACE"

def nameVariable : String := "PODMONITOR_NAME"

def speedVariable : String := "PODMONITOR_SPEED"

def logDirVariable : String := "PODMONITOR_LOGDIR"

def ownerLabel : String := "podmonitors.lsalab.nthu"

def managedLabel : String := "podmonitors"

def namePrefix : String := "pm-"

def logVolume : String := "podmonitor-log"

def defaultMount : String := "/var/log/podmonitor"

structure Template where
  image : String := "riyazhu/podmonitor:latest"
  containerName : String := "podmonitor"
  hostLogPath : String := "/var/local"
  serviceAccount : String := "podmonitor-metricstest"
deriving DecidableEq, Repr

def key (m : Monitor) : Key := ⟨m.metadata.ns, namePrefix ++ m.metadata.name⟩

def logDir (m : Monitor) : String :=
  if m.spec.logDirectory = "" then defaultMount else m.spec.logDirectory

def environment (m : Monitor) : List Variable :=
  [⟨namespaceVariable, m.metadata.ns⟩,
   ⟨nameVariable, m.metadata.name⟩,
   ⟨speedVariable, toString m.spec.effectiveInterval.toInt⟩,
   ⟨logDirVariable, logDir m⟩]

def build (m : Monitor) (t : Template) : Pod where
  metadata := {
    ns := (key m).ns
    name := (key m).name
    labels := Table.ofList [(ownerLabel, m.metadata.name), (managedLabel, "true")]
    owners := [m.ownerRef] }
  spec := {
    containers := [{
      name := t.containerName
      image := t.image
      env := environment m
      mounts := [⟨logVolume, logDir m⟩] }]
    volumes := [⟨logVolume, ⟨t.hostLogPath⟩⟩]
    restartPolicy := .onFailure
    serviceAccount := t.serviceAccount }

end Child

end MonitorOperator
