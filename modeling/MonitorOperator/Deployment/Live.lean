import MonitorOperator.Deployment

/-!
The live parts of a deployment: the routers, the controllers with their workers, and the clock. The
routers move until they have nothing to read, one after the other; then the workers serve keys until
there are none; and so on until all are idle. The alarms of a moment ring in the order they were set,
and all of them before a worker moves.
-/

namespace MonitorOperator.Deployment

def restTime : Duration := .ofSeconds 1

def setRouter (d : Deployment) (i : Nat) (r : Router) : Deployment :=
  { d with routers := d.routers.set i r }

def list (d : Deployment) (i : Nat) (r : Router) : Deployment :=
  match d.relist with
  | (d, .ok _) => d.setRouter i { r with stage := .watching }
  | (d, .error cause) =>
    let d := (d.log (.listFailed cause.message)).setRouter i { r with stage := .resting }
    { d with agenda := d.agenda.set (d.now + restTime.nanos) (.relist i) }

def route? (i : Nat) (d : Deployment) : Option Deployment :=
  match d.routers[i]? with
  | none => none
  | some r =>
    match r.stage with
    | .listing => some (d.list i r)
    | .resting => none
    | .stopped => none
    | .watching =>
      match d.drill.store.feed.read r.position with
      | (.nothing, _) => none
      | (.lagged missed, position) =>
        some ((d.log (.feedLagged missed)).setRouter i ⟨.listing, position⟩)
      | (.change c, position) => some ((d.handle c).setRouter i ⟨.watching, position⟩)

/-- A worker serves the next key. One that falls is lost to its controller. -/
def work? (d : Deployment) : Option Deployment :=
  match d.controllers.findIdx? Controller.isManned, d.operator.queue.take? with
  | some i, some (key, q) =>
    match (d.setQueue q).serve key with
    | (d, true) => some d
    | (d, false) => some { d with controllers := d.controllers.modify i Controller.loseWorker }
  | _, _ => none

def openWorkers (d : Deployment) : Deployment :=
  if d.operator.cache.synced && d.controllers.any Controller.isWaiting then
    { d.setBoard ((d.operator.board.setHealthy Health.cacheComponent).setSynced true) with
      controllers := d.controllers.map Controller.opened }
  else d

def repeated (move? : Deployment → Option Deployment) : Nat → Deployment → Deployment
  | 0, d => d
  | n + 1, d =>
    match move? d with
    | none => d
    | some d => repeated move? n d

/-- The moves that are made before a deployment counts as settled. Only a delay of zero, which adds a
key again at once, can use them up. -/
def patience : Nat := 1000000

def routeOne (d : Deployment) (i : Nat) : Deployment := repeated (route? i) patience d

def routeAll (d : Deployment) : Deployment := (List.range d.routers.length).foldl routeOne d

def workAll (d : Deployment) : Deployment := repeated work? patience d.openWorkers

def routersMove (d : Deployment) : Bool :=
  (List.range d.routers.length).any (fun i => (d.route? i).isSome)

def turn? (d : Deployment) : Option Deployment :=
  if d.routersMove then some d.routeAll.workAll else d.openWorkers.work?.map workAll

def settle (d : Deployment) : Deployment := (repeated turn? patience d).openWorkers

/-- An alarm rings. A router that rested lists again and reads what there is. -/
def ringOne (due : Moment) (d : Deployment) : Alarm → Deployment
  | .add key => d.setQueue (d.operator.queue.expire key due)
  | .relist i =>
    match d.routers[i]? with
    | some r =>
      if r.stage = .resting then (d.setRouter i { r with stage := .listing }).routeOne i else d
    | none => d

def ring (d : Deployment) (t : Moment) : Deployment :=
  let subjects := d.agenda.ringing t
  let d := { d with now := t, agenda := d.agenda.without t }
  { (subjects.foldl (ringOne t) d).settle with now := t }

def advanceTo (d : Deployment) (limit : Moment) : Deployment :=
  match _next : d.agenda.next? d.now limit with
  | none => { d with now := max d.now limit }
  | some t => (d.ring t).advanceTo limit
termination_by limit - d.now
decreasing_by
  have := Agenda.lt_of_next? _next
  exact Nat.sub_lt_sub_left (Nat.lt_of_lt_of_le this.1 this.2) this.1

def startRouter (d : Deployment) : Deployment :=
  { d with routers := d.routers ++ [⟨.listing, d.drill.store.feed.size⟩] }

def startController (d : Deployment) (workers : Nat) : Deployment :=
  { d.setBoard (d.operator.board.registerAll.setDegraded Health.cacheComponent
      "waiting for initial sync") with controllers := d.controllers ++ [.waiting (max workers 1)] }

def listens (d : Deployment) : Bool :=
  d.routers.any (·.stage ≠ .stopped) ||
    d.controllers.any (fun c => c.isWaiting || c.isRunning)

def stopRouters (d : Deployment) : Deployment :=
  { d with routers := d.routers.map (fun r => { r with stage := .stopped }) }

def logFallen (d : Deployment) (fallen : Nat) : Deployment :=
  { d with journal := d.journal ++ Array.replicate fallen .workerFailed }

/-- The end of a controller. Running workers stop; a controller that still waits has not done its
work. -/
def stopController (d : Deployment) : Controller → Deployment × Controller
  | .waiting _ =>
    ((d.setQueue d.operator.queue.shutdown).log .shutdownBeforeSync,
      .finished (.error .cacheSyncAborted))
  | .running _ fallen =>
    let d := (d.setQueue d.operator.queue.shutdown).logFallen fallen
    (d.setBoard ((d.operator.board.setUnhealthy Health.queueComponent "queue shut down").setUnhealthy
      Health.workersComponent "workers stopped"), .finished (.ok ()))
  | .finished result => (d, .finished result)

def stopControllers (d : Deployment) : Deployment :=
  let (stopped, controllers) := d.controllers.foldl
    (fun x c =>
      let (d, c) := x.1.stopController c
      (d, x.2 ++ [c]))
    (d, [])
  { stopped with controllers := controllers }

def shutdown (d : Deployment) : Deployment := d.stopRouters.stopControllers

end MonitorOperator.Deployment
