import MonitorOperator.Intake
import MonitorOperator.Operator
import MonitorOperator.Store.Drill
import MonitorOperator.Worker

/-!
A store and an operator on one clock. Single calls, whole passes and the work on a key are functions
on a deployment; who moves when is up to the modules that run one.
-/

namespace MonitorOperator

inductive Alarm where
  | add (key : String)
  | relist (router : Nat)
deriving DecidableEq, Repr

/-- Where a router is: it lists the store, rests after a listing that failed, or reads the feed. -/
inductive Router.Stage where
  | listing
  | resting
  | watching
  | stopped
deriving DecidableEq, Repr

structure Router where
  stage : Router.Stage
  position : Nat
deriving DecidableEq, Repr

/-- Where a controller of workers is: it waits for the cache, has its workers run, of whom some may
have fallen, or has ended with a result. -/
inductive Controller where
  | waiting (workers : Nat)
  | running (workers fallen : Nat)
  | finished (result : Except Error Unit)

namespace Controller

def isWaiting : Controller → Bool
  | .waiting _ => true
  | _ => false

def isRunning : Controller → Bool
  | .running .. => true
  | _ => false

def isManned : Controller → Bool
  | .running workers _ => workers ≠ 0
  | _ => false

def opened : Controller → Controller
  | .waiting workers => .running workers 0
  | c => c

def loseWorker : Controller → Controller
  | .running workers fallen => .running (workers - 1) (fallen + 1)
  | c => c

end Controller

/-- A store and an operator, the clock and its alarms, the routers and controllers in the order they
were started, and what the log says so far. Events are recorded on a clock of their own. -/
structure Deployment where
  drill : Drill := {}
  operator : Operator
  now : Moment := 0
  agenda : Agenda Alarm := {}
  wall : Moment := 0
  stamp : Recorder.Stamp
  routers : List Router := []
  controllers : List Controller := []
  journal : Array Log.Notice := #[]

namespace Deployment

def log (d : Deployment) (n : Log.Notice) : Deployment := { d with journal := d.journal.push n }

def setQueue (d : Deployment) (q : WorkQueue) : Deployment :=
  { d with operator := { d.operator with queue := q } }

def setMetrics (d : Deployment) (m : Metrics) : Deployment :=
  { d with operator := { d.operator with metrics := m } }

def setBoard (d : Deployment) (b : Health.Board) : Deployment :=
  { d with operator := { d.operator with board := b } }

def setCache (d : Deployment) (c : Cache) : Deployment :=
  { d with operator := { d.operator with cache := c } }

def onDrill {α : Type} (d : Deployment) (reply : Drill × α) : Deployment × α :=
  ({ d with drill := reply.1 }, reply.2)

def onStore {α : Type} (d : Deployment) (written : Store × α) : Deployment × α :=
  ({ d with drill := { d.drill with store := written.1 } }, written.2)

def setAlarm (d : Deployment) (key : String) : Option Moment → Deployment
  | none => d
  | some due => { d with agenda := d.agenda.set due (.add key) }

def addAfter (d : Deployment) (key : String) (delay : Duration) : Deployment :=
  let (queue, alarm) := d.operator.queue.addAfter d.now key delay
  (d.setQueue queue).setAlarm key alarm

def addRateLimited (d : Deployment) (key : String) : Deployment × Duration :=
  let (queue, alarm, delay) := d.operator.queue.addRateLimited d.now key
  ((d.setQueue queue).setAlarm key alarm, delay)

def drain (d : Deployment) : Deployment × List String :=
  let (q, keys) := d.operator.queue.drain
  (d.setQueue q, keys)

def takeIn (d : Deployment) (intake : Intake → Intake) : Deployment :=
  let i := intake ⟨d.operator.cache, d.operator.queue, []⟩
  let d := (d.setCache i.cache).setQueue i.queue
  { d with journal := d.journal ++ i.notices.toArray }

def handle (d : Deployment) (change : Change) : Deployment := d.takeIn (·.handle change)

def relistFrom (d : Deployment) (listing : List Object) : Deployment := d.takeIn (·.relist listing)

def takeListing (d : Deployment) :
    Except StoreError (List Object) → Deployment × Except StoreError Nat
  | .error cause => (d, .error cause)
  | .ok listing => (d.relistFrom listing, .ok listing.length)

def relist (d : Deployment) : Deployment × Except StoreError Nat :=
  let (d, answer) := d.onDrill d.drill.list
  d.takeListing answer

def record (d : Deployment) (report : Recorder.Report) : Deployment :=
  let (recorder, event) := d.operator.recorder.record d.wall d.stamp report
  let d := { d with operator := { d.operator with recorder := recorder } }
  match event with
  | none => d
  | some event =>
    match d.onDrill (d.drill.publish event) with
    | (d, none) => d
    | (d, some cause) => d.log (.publishFailed report.monitor.key.text report.reason cause)

def report (d : Deployment) (r : Pass.Report) : Deployment :=
  let d := (d.setMetrics (r.count d.operator.metrics)).log r.notice
  match r.event? with
  | none => d
  | some event => d.record event

def replyToPass : (c : Pass.Call) → Deployment → Deployment × Pass.Reply c
  | .getMonitor key, d => d.onDrill (d.drill.getMonitor key)
  | .updateStatus m, d => d.onDrill (d.drill.updateStatus m)
  | .getPod key, d => d.onDrill (d.drill.getPod key)
  | .createPod p, d => d.onDrill (d.drill.createPod p)
  | .cachedPod key, d => (d, d.operator.cache.pods.get? key)
  | .report r, d => (d.report r, ())

def reply : (c : Worker.Call) → Deployment → Deployment × Worker.Reply c
  | .pass c, d => replyToPass c d
  | .clock, d => (d, d.now)
  | .started, d => (d.setMetrics d.operator.metrics.workerStarted, ())
  | .finished, d => (d.setMetrics d.operator.metrics.workerFinished, ())
  | .forget key, d => (d.setQueue (d.operator.queue.forget key), ())
  | .addAfter key delay, d => (d.addAfter key delay, ())
  | .addRateLimited key, d => d.addRateLimited key
  | .attempts key, d => (d, d.operator.queue.attempts key)
  | .countRetry, d => (d.setMetrics d.operator.metrics.retried, ())
  | .observe elapsed outcome, d => (d.setMetrics (d.operator.metrics.observe elapsed outcome), ())
  | .storeWell, d => (d.setBoard (d.operator.board.setHealthy Health.storeComponent), ())
  | .storeFailing message, d =>
    (d.setBoard (d.operator.board.setDegraded Health.storeComponent message), ())
  | .log n, d => (d.log n, ())
  | .done key, d => (d.setQueue (d.operator.queue.done key), ())
  | .showDepth, d =>
    (d.setMetrics (d.operator.metrics.setDepth d.operator.queue.length), ())

def sync (d : Deployment) (key : String) : Deployment × Except Error Pass.Action :=
  (Pass.sync d.operator.delays d.operator.template key).run replyToPass d

/-- Whether a worker falls at a call: it asks for a key beyond the end of the clock. -/
def fails : Worker.Call → Deployment → Bool
  | .addAfter _ delay, d => WorkQueue.isBeyond d.now delay
  | .addRateLimited key, d => WorkQueue.isBeyond d.now (d.operator.queue.backoff.fail key).2
  | _, _ => false

/-- The steps of a worker up to their end or to the call at which it falls, and whether it stands
thereafter. A call that fails may have done something before. -/
def carryOut : Worker.Steps Unit → Deployment → Deployment × Bool
  | .finish _, d => (d, true)
  | .call c next, d =>
    if fails c d then ((reply c d).1, false)
    else
      let (d, r) := reply c d
      carryOut (next r) d

/-- The work on a key. A worker that falls does not release the key. -/
def serve (d : Deployment) (key : String) : Deployment × Bool :=
  carryOut (Worker.serve d.operator.delays d.operator.template key) d

end Deployment

end MonitorOperator
