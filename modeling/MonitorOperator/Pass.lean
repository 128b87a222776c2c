import MonitorOperator.Child
import MonitorOperator.Duration
import MonitorOperator.Error
import MonitorOperator.Event
import MonitorOperator.Program

/-!
One pass over a monitor. It reads the monitor from the store and moves it at most one phase:

    unset -> pending -> running -> completed
                |  ^       |
                v  |       |
               failed <----+

A pass that finds the monitored pod in the cache makes sure that the child is there and belongs to
the monitor. It ends with what the queue has to do for the key.
-/

namespace MonitorOperator.Pass

structure Delays where
  /-- while the monitored pod is missing or the name of the child is taken -/
  failed : Duration := .ofSeconds 5
  /-- while the monitor is running -/
  resync : Duration := .ofSeconds 30
  /-- in a phase of another schema -/
  unrecognized : Duration := .ofSeconds 10
deriving DecidableEq

inductive Action where
  | requeue (delay : Duration)
  /-- nothing until the monitor or its pods change -/
  | awaitChange
deriving DecidableEq

inductive Report where
  | childCreated (monitor : Monitor) (pod : Pod)
  /-- a status was written over another one; the reason is for events of a failure -/
  | statusWritten (before : MonitorStatus) (written : Monitor) (failure : EventReason)
  | childNameTaken (key : Key) (cause : Error)
  | phaseUnknown (key : Key) (phase : String)
deriving DecidableEq

inductive Call where
  | getMonitor (key : Key)
  | updateStatus (m : Monitor)
  | getPod (key : Key)
  | createPod (p : Pod)
  | cachedPod (key : Key)
  | report (r : Report)

abbrev Reply : Call → Type
  | .getMonitor _ => Except StoreError Monitor
  | .updateStatus _ => Except StoreError Monitor
  | .getPod _ => Except StoreError Pod
  | .createPod _ => Except StoreError Pod
  | .cachedPod _ => Option Pod
  | .report _ => Unit

abbrev Steps (α : Type) := Program Call Reply α

def getMonitor (key : Key) : Steps (Except StoreError Monitor) := .call (.getMonitor key) .finish

def updateStatus (m : Monitor) : Steps (Except StoreError Monitor) := .call (.updateStatus m) .finish

def getPod (key : Key) : Steps (Except StoreError Pod) := .call (.getPod key) .finish

def createPod (p : Pod) : Steps (Except StoreError Pod) := .call (.createPod p) .finish

def cachedPod (key : Key) : Steps (Option Pod) := .call (.cachedPod key) .finish

def report (r : Report) : Steps Unit := .call (.report r) .finish

structure Move where
  status : MonitorStatus
  action : Action
  failure : EventReason := .monitoredPodMissing
deriving DecidableEq

inductive Found where
  | created
  | existing (pod : Pod)
deriving DecidableEq

def owned (m : Monitor) (pod : Pod) : Except Error Found :=
  if m.controls pod.metadata then .ok (.existing pod)
  else .error (.childNotOwned pod.key.text m.key.text)

/-- Makes sure that the child is there and belongs to the monitor. Whoever comes second in a race to
create it takes the one that is there. -/
def ensureChild (t : Child.Template) (m : Monitor) : Steps (Except Error Found) := do
  match ← getPod (Child.key m) with
  | .ok pod => return owned m pod
  | .error e =>
    if !e.isNotFound then return .error (.store e)
    else
      match ← createPod (Child.build m t) with
      | .ok pod =>
        report (.childCreated m pod)
        return .ok .created
      | .error e =>
        if !e.isAlreadyExists then return .error (.store e)
        else
          match ← getPod (Child.key m) with
          | .ok pod => return owned m pod
          | .error e => return .error (.store e)

def afterChild (d : Delays) (m : Monitor) : Found → Move
  | .created => ⟨m.status, .requeue d.resync, .monitoredPodMissing⟩
  | .existing pod =>
    if pod.status.phase.isTerminal then ⟨.plain .completed, .awaitChange, .monitoredPodMissing⟩
    else ⟨m.status, .requeue d.resync, .monitoredPodMissing⟩

def move (d : Delays) (t : Child.Template) (m : Monitor) : Steps (Except Error Move) :=
  match m.status.phase with
  | .unset => return .ok { status := .plain .pending, action := .awaitChange }
  | .pending => start
  | .failed => start
  | .running => return (← ensureChild t m).map (afterChild d m)
  | .completed => return .ok { status := m.status, action := .awaitChange }
  | .unrecognized raw => do
    report (.phaseUnknown m.key raw)
    return .ok { status := m.status, action := .requeue d.unrecognized }
where
  start : Steps (Except Error Move) := do
    match ← cachedPod m.key with
    | none =>
      return .ok {
        status := .failure ("monitored pod " ++ m.key.text ++ " not found")
        action := .requeue d.failed }
    | some _ =>
      return (← ensureChild t m).map (fun _ =>
        { status := .plain .running, action := .requeue d.resync })

/-- Writes the status of a move if it differs from the one that was read. -/
def conclude (m : Monitor) (next : Move) : Steps (Except Error Action) := do
  if !m.status.changed next.status then return .ok next.action
  else
    let update := { m with status := next.status }
    match ← updateStatus update with
    | .error e => return .error (.store e)
    | .ok _ =>
      report (.statusWritten m.status update next.failure)
      return .ok next.action

/-- The pass over a monitor. A child that belongs to someone else is a failure of the monitor. -/
def ofMonitor (d : Delays) (t : Child.Template) (key : Key) (m : Monitor) :
    Steps (Except Error Action) := do
  match ← move d t m with
  | .ok next => conclude m next
  | .error (.childNotOwned pod owner) =>
    let cause := Error.childNotOwned pod owner
    report (.childNameTaken key cause)
    conclude m {
      status := .failure cause.message
      action := .requeue d.failed
      failure := .childNotOwned }
  | .error e => return .error e

def ofKey (d : Delays) (t : Child.Template) (key : Key) : Steps (Except Error Action) := do
  match ← getMonitor key with
  | .ok m => ofMonitor d t key m
  | .error e => if e.isNotFound then return .ok .awaitChange else return .error (.store e)

def sync (d : Delays) (t : Child.Template) (key : String) : Steps (Except Error Action) :=
  match Key.parse key with
  | .ok key => ofKey d t key
  | .error cause => return .error (.malformedKey key cause.message)

end MonitorOperator.Pass
